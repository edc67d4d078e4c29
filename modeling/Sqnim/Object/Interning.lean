import Sqnim.Compiler.FuncState
import Sqnim.Object.StringTable
import Sqnim.Vm.Compare

/-!
# Strings are interned

The chains hold the live strings, each on the chain of its hash, and no content twice. Creation, a
resize and the release of a string keep this, so that one address is one content.
-/
namespace Sqnim.Object.SQStringTable

open Sqnim.Lib Sqnim.Lib.LinkedList

variable {α : Type} [DecidableEq α]

/-- What a string is besides its link. -/
def text (t : SQStringTable α) (s : α) : Nat × BitVec 64 × List UInt8 :=
  ((t.strings s).len, (t.strings s).hash, (t.strings s).val)

def content (t : SQStringTable α) (s : α) : List UInt8 := (t.strings s).val.take (t.strings s).len

def position (t : SQStringTable α) (s : α) : Nat := t.slot (t.strings s).hash

/-- The chains of the buckets. -/
structure Shape (t : SQStringTable α) (chain : Nat → List α) : Prop where
  positive : 0 < t.numofslots
  linked : ∀ b < t.numofslots, Linked t.links (t.buckets b) (chain b)
  placed : ∀ b < t.numofslots, ∀ s ∈ chain b, t.position s = b
  nodup : ∀ b < t.numofslots, (chain b).Nodup

section Shape

variable {t : SQStringTable α} {chain : Nat → List α}

omit [DecidableEq α] in
theorem position_lt (h : Shape t chain) (s : α) : t.position s < t.numofslots := by
  have hle : t.position s ≤ t.numofslots - 1 := Nat.and_le_right
  have hpos := h.positive
  omega

omit [DecidableEq α] in
/-- A string on a chain is on that of its own bucket. -/
theorem Shape.mem_iff (h : Shape t chain) (s : α) :
    (∃ b < t.numofslots, s ∈ chain b) ↔ s ∈ chain (t.position s) := by
  constructor
  · rintro ⟨b, hb, hs⟩
    rwa [h.placed b hb s hs]
  · intro hs
    exact ⟨_, position_lt h s, hs⟩

omit [DecidableEq α] in
theorem position_eq {t' : SQStringTable α} {s : α} (hsize : t'.numofslots = t.numofslots)
    (htext : t'.text s = t.text s) : t'.position s = t.position s := by
  have hhash : (t'.strings s).hash = (t.strings s).hash := congrArg (·.2.1) htext
  rw [position, position, slot, slot, hsize, hhash]

theorem links_push (t : SQStringTable α) (s : α) :
    (t.push s).links = Function.update t.links s (t.buckets (t.position s)) := by
  funext u
  by_cases hu : u = s
  · rw [hu, Function.update_self]
    simp [links, push, position]
  · rw [Function.update_of_ne hu]
    simp [links, push, hu]

theorem text_push (t : SQStringTable α) (s u : α) : (t.push s).text u = t.text u := by
  by_cases hu : u = s
  · rw [hu]
    simp [text, push]
  · simp [text, push, hu]

theorem position_push (t : SQStringTable α) (s u : α) : (t.push s).position u = t.position u :=
  position_eq rfl (text_push t s u)

/-- A new string goes in front of the chain of its bucket. -/
theorem Shape.push (h : Shape t chain) {s : α} (hs : ∀ b < t.numofslots, s ∉ chain b) :
    Shape (t.push s)
      (Function.update chain (t.position s) (s :: chain (t.position s))) := by
  have hlt := position_lt h s
  have hlinks := links_push t s
  refine ⟨h.positive, ?_, ?_, ?_⟩
  · intro b hb
    have hbuckets : (t.push s).buckets = Function.update t.buckets (t.position s) (some s) := rfl
    rw [hlinks, hbuckets]
    by_cases hbp : b = t.position s
    · rw [hbp, Function.update_self, Function.update_self]
      exact (h.linked _ hlt).push (hs _ hlt)
    · rw [Function.update_of_ne hbp, Function.update_of_ne hbp]
      exact (h.linked b hb).update_of_notMem (hs b hb) _
  · intro b hb u hu
    rw [position_push]
    by_cases hbp : b = t.position s
    · rw [hbp, Function.update_self] at hu
      obtain rfl | hu := List.mem_cons.mp hu
      · exact hbp.symm
      · rw [hbp]
        exact h.placed _ hlt u hu
    · rw [Function.update_of_ne hbp] at hu
      exact h.placed b hb u hu
  · intro b hb
    by_cases hbp : b = t.position s
    · rw [hbp, Function.update_self]
      exact List.nodup_cons.mpr ⟨hs _ hlt, h.nodup _ hlt⟩
    · rw [Function.update_of_ne hbp]
      exact h.nodup b hb

omit [DecidableEq α] in
theorem shape_allocNodes (t : SQStringTable α) {size : Nat} (hsize : 0 < size) :
    Shape (t.allocNodes size) fun _ => [] :=
  ⟨hsize, fun _ _ => rfl, fun _ _ _ hs => (by cases hs), fun _ _ => List.nodup_nil⟩

end Shape

/-! ## The resize -/

section Resize

variable {t : SQStringTable α} {chain : Nat → List α}

/-- What the moves of `Resize` from `t` to `t'` keep: everything but the links of the strings on a
list and the buckets. -/
structure Moved (t t' : SQStringTable α) (l : List α) : Prop where
  size : t'.numofslots = t.numofslots
  used : t'.slotused = t.slotused
  text : ∀ s, t'.text s = t.text s
  links : ∀ s, s ∉ l → t'.links s = t.links s

/-- The strings of an old chain go to the chains of their new buckets. -/
theorem relink_spec {l : List α} {start : Option α} {fuel : Nat} (h : Shape t chain)
    (hl : Linked t.links start l) (hnodup : l.Nodup)
    (hnew : ∀ s ∈ l, ∀ b < t.numofslots, s ∉ chain b) (hfuel : l.length < fuel) :
    ∃ t' chain', t.relink fuel start = .ok t' ∧ Shape t' chain' ∧ Moved t t' l ∧
      ∀ b < t.numofslots, ∀ s, s ∈ chain' b ↔ s ∈ chain b ∨ (s ∈ l ∧ t.position s = b) := by
  induction l generalizing t chain start fuel with
  | nil =>
    obtain ⟨fuel, rfl⟩ := Nat.exists_eq_succ_of_ne_zero (show fuel ≠ 0 by omega)
    obtain rfl : start = none := hl
    exact ⟨t, chain, rfl, h, ⟨rfl, rfl, fun _ => rfl, fun _ _ => rfl⟩, fun b hb s => by simp⟩
  | cons p l ih =>
    obtain ⟨fuel, rfl⟩ := Nat.exists_eq_succ_of_ne_zero (show fuel ≠ 0 by omega)
    obtain ⟨rfl, hrest⟩ := hl
    obtain ⟨hpl, hnodup⟩ := List.nodup_cons.mp hnodup
    have hp := hnew p List.mem_cons_self
    have hlt := position_lt h p
    have hrest' : Linked (t.push p).links (t.links p) l := by
      rw [links_push]
      exact hrest.update_of_notMem hpl _
    have hnew' : ∀ s ∈ l, ∀ b < t.numofslots,
        s ∉ Function.update chain (t.position p) (p :: chain (t.position p)) b := by
      intro s hs b hb hmem
      have hsp : s ≠ p := by
        rintro rfl
        exact hpl hs
      have hold := hnew s (List.mem_cons_of_mem p hs)
      by_cases hbp : b = t.position p
      · rw [hbp, Function.update_self] at hmem
        exact hold _ hlt ((List.mem_cons.mp hmem).resolve_left hsp)
      · rw [Function.update_of_ne hbp] at hmem
        exact hold b hb hmem
    rw [List.length_cons] at hfuel
    obtain ⟨t', chain', hrun, hshape, hmoved, hmem⟩ :=
      @ih _ _ _ fuel (h.push hp) hrest' hnodup hnew' (by omega)
    refine ⟨t', chain', hrun, hshape, ⟨hmoved.size, hmoved.used, ?_, ?_⟩, ?_⟩
    · intro s
      rw [hmoved.text, text_push]
    · intro s hs
      rw [hmoved.links s fun hsl => hs (List.mem_cons_of_mem p hsl), links_push,
        Function.update_of_ne fun hsp => hs (by rw [hsp]; exact List.mem_cons_self)]
    · intro b hb s
      rw [hmem b hb s, position_push]
      by_cases hbp : b = t.position p
      · rw [hbp, Function.update_self, List.mem_cons, List.mem_cons]
        constructor
        · rintro ((rfl | hs) | ⟨hs, hb'⟩)
          · exact .inr ⟨.inl rfl, rfl⟩
          · exact .inl hs
          · exact .inr ⟨.inr hs, hb'⟩
        · rintro (hs | ⟨rfl | hs, hb'⟩)
          · exact .inl (.inr hs)
          · exact .inl (.inl rfl)
          · exact .inr ⟨hs, hb'⟩
      · rw [Function.update_of_ne hbp, List.mem_cons]
        constructor
        · rintro (hs | ⟨hs, hb'⟩)
          · exact .inl hs
          · exact .inr ⟨.inr hs, hb'⟩
        · rintro (hs | ⟨rfl | hs, hb'⟩)
          · exact .inl hs
          · exact absurd hb'.symm hbp
          · exact .inr ⟨hs, hb'⟩

/-- After the first `k` chains, the new table holds their strings. -/
theorem relink_chains (h : Shape t chain) (hlen : ∀ b < t.numofslots, (chain b).length < t.numofslots + 2)
    {size k : Nat} (hsize : 0 < size) (hk : k ≤ t.numofslots) :
    ∃ new chain', (List.range k).foldlM
        (fun new i => new.relink (t.numofslots + 2) (t.buckets i)) (t.allocNodes size) = .ok new ∧
      Shape new chain' ∧ Moved (t.allocNodes size) new ((List.range k).flatMap chain) ∧
      ∀ b < size, ∀ s, s ∈ chain' b ↔
        s ∈ (List.range k).flatMap chain ∧ (t.allocNodes size).position s = b := by
  induction k with
  | zero =>
    exact ⟨t.allocNodes size, fun _ => [], rfl, shape_allocNodes t hsize,
      ⟨rfl, rfl, fun _ => rfl, fun _ _ => rfl⟩, fun b hb s => by simp⟩
  | succ k ih =>
    obtain ⟨new, chain', hrun, hshape, hmoved, hmem⟩ := ih (by omega)
    have hkn : k < t.numofslots := by omega
    have hsz : new.numofslots = size := hmoved.size
    -- the chain `k` is not touched yet
    have hapart : ∀ s ∈ chain k, s ∉ (List.range k).flatMap chain := by
      intro s hs hmem'
      obtain ⟨i, hi, hsi⟩ := List.mem_flatMap.mp hmem'
      have hik := List.mem_range.mp hi
      have h₁ := h.placed k hkn s hs
      have h₂ := h.placed i (by omega) s hsi
      omega
    have hlinked : Linked new.links (t.buckets k) (chain k) :=
      (h.linked k hkn).congr fun s hs => hmoved.links s (hapart s hs)
    obtain ⟨new', chain'', hrun', hshape', hmoved', hmem'⟩ :=
      relink_spec hshape hlinked (h.nodup k hkn)
        (fun s hs b hb hsb => hapart s hs ((hmem b (hsz ▸ hb) s).mp hsb).1) (hlen k hkn)
    have hflat : (List.range (k + 1)).flatMap chain = (List.range k).flatMap chain ++ chain k := by
      rw [List.range_succ, List.flatMap_append, List.flatMap_singleton]
    refine ⟨new', chain'', ?_, hshape', ⟨?_, ?_, ?_, ?_⟩, ?_⟩
    · rw [List.range_succ, List.foldlM_append, hrun]
      exact congrArg (· >>= pure) hrun'
    · rw [hmoved'.size, hmoved.size]
    · rw [hmoved'.used, hmoved.used]
    · intro s
      rw [hmoved'.text, hmoved.text]
    · intro s hs
      rw [hflat, List.mem_append] at hs
      rw [hmoved'.links s fun hk' => hs (.inr hk'), hmoved.links s fun hk' => hs (.inl hk')]
    · intro b hb s
      rw [hmem' b (hsz.symm ▸ hb) s, hmem b hb s, hflat, List.mem_append,
        position_eq (t := t.allocNodes size) hmoved.size (hmoved.text s)]
      constructor
      · rintro (⟨hs, hb'⟩ | ⟨hs, hb'⟩)
        · exact ⟨.inl hs, hb'⟩
        · exact ⟨.inr hs, hb'⟩
      · rintro ⟨hs | hs, hb'⟩
        · exact .inl ⟨hs, hb'⟩
        · exact .inr ⟨hs, hb'⟩

end Resize

/-! ## The live strings -/

section Holds

/-- The fields of the string that `Add` makes of a content. -/
def textOf (content : List UInt8) : Nat × BitVec 64 × List UInt8 :=
  (content.length, hashstr content, content ++ [0])

/-- The strings on the chains are the live ones, with the fields that `Add` gave them. -/
structure Holds (t : SQStringTable α) (live : List α) (chain : Nat → List α) : Prop where
  shape : Shape t chain
  mem_iff : ∀ s, s ∈ chain (t.position s) ↔ s ∈ live
  nodup : live.Nodup
  used : t.slotused = live.length
  stored : ∀ s ∈ live, t.text s = textOf (t.content s)
  distinct : ∀ s ∈ live, ∀ u ∈ live, t.content s = t.content u → s = u

variable {t t' : SQStringTable α} {chain : Nat → List α} {live : List α} {s : α}

omit [DecidableEq α] in
theorem content_eq_of_text (h : t'.text s = t.text s) : t'.content s = t.content s := by
  have hlen : (t'.strings s).len = (t.strings s).len := congrArg (·.1) h
  have hval : (t'.strings s).val = (t.strings s).val := congrArg (·.2.2) h
  rw [content, content, hlen, hval]

omit [DecidableEq α] in
theorem content_of_text {content : List UInt8} (h : t.text s = textOf content) :
    t.content s = content := by
  have hlen : (t.strings s).len = content.length := congrArg (·.1) h
  have hval : (t.strings s).val = content ++ [0] := congrArg (·.2.2) h
  rw [SQStringTable.content, hlen, hval]
  exact List.take_left

omit [DecidableEq α] in
theorem Holds.mem_chain (h : Holds t live chain) {b : Nat} (hb : b < t.numofslots)
    (hs : s ∈ chain b) : s ∈ live := by
  rw [← h.mem_iff, h.shape.placed b hb s hs]
  exact hs

omit [DecidableEq α] in
theorem Holds.chain_length_le (h : Holds t live chain) {b : Nat} (hb : b < t.numofslots) :
    (chain b).length ≤ live.length :=
  ((h.shape.nodup b hb).subperm fun _ hs => h.mem_chain hb hs).length_le

/-- The new table has the strings of the old one. -/
theorem Holds.resize (h : Holds t live chain) (hcrowded : live.length ≤ t.numofslots + 1)
    {size : Nat} (hsize : 0 < size) :
    ∃ t' chain', t.resize size = .ok t' ∧ Holds t' live chain' ∧ t'.numofslots = size ∧
      ∀ s, t'.text s = t.text s := by
  have hlen : ∀ b < t.numofslots, (chain b).length < t.numofslots + 2 := by
    intro b hb
    have hle := h.chain_length_le hb
    omega
  obtain ⟨t', chain', hrun, hshape, hmoved, hmem⟩ := relink_chains h.shape hlen hsize le_rfl
  have htext : ∀ s, t'.text s = t.text s := hmoved.text
  refine ⟨t', chain', hrun, ⟨hshape, ?_, h.nodup, hmoved.used.trans h.used, ?_, ?_⟩, hmoved.size,
    htext⟩
  · intro s
    have hpos : (t.allocNodes size).position s = t'.position s :=
      (position_eq hmoved.size (hmoved.text s)).symm
    have hsz : t'.numofslots = size := hmoved.size
    have hlt : t'.position s < size := hsz ▸ position_lt hshape s
    rw [hmem _ hlt, and_iff_left hpos, List.mem_flatMap, ← h.mem_iff, ← h.shape.mem_iff]
    simp only [List.mem_range]
  · intro s hs
    rw [htext s, content_eq_of_text (htext s)]
    exact h.stored s hs
  · intro s hs u hu hsu
    rw [content_eq_of_text (htext s), content_eq_of_text (htext u)] at hsu
    exact h.distinct s hs u hu hsu

/-! ### Creation -/

omit [DecidableEq α] in
theorem Holds.sameBytes_iff (h : Holds t live chain) {content : List UInt8} (hs : s ∈ live) :
    t.sameBytes content s = true ↔ t.content s = content := by
  have hlen : (t.strings s).len = (t.content s).length := congrArg (·.1) (h.stored s hs)
  simp only [sameBytes, Bool.and_eq_true, beq_iff_eq]
  constructor
  · rintro ⟨hlen', hval⟩
    rw [SQStringTable.content, hlen', hval]
  · rintro rfl
    rw [← hlen]
    exact ⟨rfl, rfl⟩

omit [DecidableEq α] in
theorem Holds.position_eq_slot (h : Holds t live chain) (hs : s ∈ live) :
    t.position s = t.slot (hashstr (t.content s)) := by
  have hhash : (t.strings s).hash = hashstr (t.content s) := congrArg (·.2.1) (h.stored s hs)
  rw [position, hhash]

omit [DecidableEq α] in
/-- The walk of `Add` finds the live string of the content. -/
theorem Holds.find (h : Holds t live chain) (hcrowded : live.length ≤ t.numofslots)
    (content : List UInt8) :
    ∃ prev found, locate t.links (t.sameBytes content) (t.numofslots + 1) none
        (t.buckets (t.slot (hashstr content))) = some (prev, found) ∧
      (∀ s, found = some s → s ∈ live ∧ t.content s = content) ∧
      (found = none → ∀ s ∈ live, t.content s ≠ content) := by
  have hlt : t.slot (hashstr content) < t.numofslots := by
    have hle : t.slot (hashstr content) ≤ t.numofslots - 1 := Nat.and_le_right
    have hpos := h.shape.positive
    omega
  have hlen := h.chain_length_le hlt
  refine ⟨_, _, locate_eq _ (h.shape.linked _ hlt) (by omega), ?_, ?_⟩
  · intro s hs
    have hlive := h.mem_chain hlt (List.mem_of_find?_eq_some hs)
    exact ⟨hlive, (h.sameBytes_iff hlive).mp (List.find?_some hs)⟩
  · rintro hnone s hs rfl
    rw [List.find?_eq_none] at hnone
    rw [← h.position_eq_slot hs] at hnone
    exact hnone s ((h.mem_iff s).mpr hs) ((h.sameBytes_iff hs).mpr rfl)

/-- The memory at `malloc` becomes a string that is on no chain yet. -/
def write (t : SQStringTable α) (malloc : α) (content : List UInt8) : SQStringTable α :=
  let made : SQString α :=
    { next := none, len := content.length, hash := hashstr content, val := content ++ [0] }
  { t with strings := Function.update t.strings malloc made }

/-- The table with a new string at `malloc`. -/
def create (t : SQStringTable α) (malloc : α) (content : List UInt8) : SQStringTable α :=
  let t := (t.write malloc content).push malloc
  { t with slotused := t.slotused + 1 }

theorem text_write_self (t : SQStringTable α) (malloc : α) (content : List UInt8) :
    (t.write malloc content).text malloc = textOf content := by
  simp [write, text, textOf]

theorem text_write (t : SQStringTable α) {malloc : α} (content : List UInt8) (hs : s ≠ malloc) :
    (t.write malloc content).text s = t.text s := by
  simp [write, text, hs]

theorem text_create (t : SQStringTable α) (malloc : α) (content : List UInt8) (s : α) :
    (t.create malloc content).text s = (t.write malloc content).text s :=
  text_push _ malloc s

theorem Shape.write (h : Shape t chain) {malloc : α} (hoff : ∀ b < t.numofslots, malloc ∉ chain b)
    (content : List UInt8) : Shape (t.write malloc content) chain := by
  have hne : ∀ b < t.numofslots, ∀ s ∈ chain b, s ≠ malloc := by
    rintro b hb s hs rfl
    exact hoff b hb hs
  refine ⟨h.positive, fun b hb => ?_, fun b hb s hs => ?_, h.nodup⟩
  · refine (h.linked b hb).congr fun s hs => ?_
    simp [links, SQStringTable.write, hne b hb s hs]
  · rw [← h.placed b hb s hs]
    exact position_eq rfl (text_write t content (hne b hb s hs))

theorem Holds.create (h : Holds t live chain) {malloc : α} (hmalloc : malloc ∉ live)
    {content : List UInt8} (hnew : ∀ s ∈ live, t.content s ≠ content) :
    ∃ chain', Holds (t.create malloc content) (malloc :: live) chain' := by
  have hoff : ∀ b < t.numofslots, malloc ∉ chain b := fun b hb hs => hmalloc (h.mem_chain hb hs)
  have hold : ∀ s ∈ live, (t.create malloc content).text s = t.text s := by
    rintro s hs
    rw [text_create, text_write]
    rintro rfl
    exact hmalloc hs
  have hself : (t.create malloc content).text malloc = textOf content := by
    rw [text_create, text_write_self]
  have hcontent := content_of_text hself
  have hpushed := (h.shape.write hoff content).push (s := malloc) hoff
  refine ⟨_, ⟨hpushed.positive, hpushed.linked, hpushed.placed, hpushed.nodup⟩, ?_, ?_, ?_, ?_, ?_⟩
  · intro s
    have hpos : (t.create malloc content).position s = (t.write malloc content).position s :=
      position_push _ malloc s
    rw [hpos]
    by_cases hs : s = malloc
    · rw [hs, Function.update_self]
      exact iff_of_true List.mem_cons_self List.mem_cons_self
    · have hpos' : (t.write malloc content).position s = t.position s :=
        position_eq rfl (text_write t content hs)
      rw [hpos', List.mem_cons, or_iff_right hs, ← h.mem_iff]
      by_cases hb : t.position s = (t.write malloc content).position malloc
      · rw [hb, Function.update_self, List.mem_cons, or_iff_right hs]
      · rw [Function.update_of_ne hb]
  · exact List.nodup_cons.mpr ⟨hmalloc, h.nodup⟩
  · rw [List.length_cons, ← h.used]
    rfl
  · intro s hs
    obtain rfl | hs := List.mem_cons.mp hs
    · rw [hcontent, hself]
    · rw [content_eq_of_text (hold s hs), hold s hs]
      exact h.stored s hs
  · intro s hs u hu hsu
    obtain rfl | hsl := List.mem_cons.mp hs
    · obtain rfl | hul := List.mem_cons.mp hu
      · rfl
      · rw [hcontent, content_eq_of_text (hold u hul)] at hsu
        exact absurd hsu.symm (hnew u hul)
    · rw [content_eq_of_text (hold s hsl)] at hsu
      obtain rfl | hul := List.mem_cons.mp hu
      · rw [hcontent] at hsu
        exact absurd hsu (hnew s hsl)
      · rw [content_eq_of_text (hold u hul)] at hsu
        exact h.distinct s hsl u hul hsu

section Add

variable {news content : List UInt8} {len : Int} {malloc : α} {prev : Option α}

theorem add_found (hgiven : given news len = .ok content)
    (hfind : locate t.links (t.sameBytes content) (t.numofslots + 1) none
      (t.buckets (t.slot (hashstr content))) = some (prev, some s)) :
    t.add malloc news len = .ok (t, s) := by
  rw [add, hgiven]
  simp only [bind, Except.bind, hfind]

theorem add_absent (hgiven : given news len = .ok content)
    (hfind : locate t.links (t.sameBytes content) (t.numofslots + 1) none
      (t.buckets (t.slot (hashstr content))) = some (prev, none)) :
    t.add malloc news len =
      if (t.create malloc content).slotused > t.numofslots then
        ((t.create malloc content).resize (t.numofslots * 2)).map (·, malloc)
      else .ok (t.create malloc content, malloc) := by
  rw [add, hgiven]
  simp only [bind, Except.bind, hfind]
  show (if (t.create malloc content).slotused > t.numofslots then
    (t.create malloc content).resize (t.numofslots * 2) >>= fun t' => .ok (t', malloc)
    else .ok (t.create malloc content, malloc)) = _
  split_ifs
  · cases (t.create malloc content).resize (t.numofslots * 2) with
    | error fault => rfl
    | ok t' => rfl
  · rfl

/-- `Add` gives the live string of the content if there is one, and makes one otherwise. -/
theorem Holds.add (h : Holds t live chain) (hcrowded : live.length ≤ t.numofslots)
    (hmalloc : malloc ∉ live) (hgiven : given news len = .ok content) :
    ∃ t' s chain', t.add malloc news len = .ok (t', s) ∧ Holds t' (live.insert s) chain' ∧
      (live.insert s).length ≤ t'.numofslots ∧ t'.content s = content ∧
      (∀ u ∈ live, t'.text u = t.text u) ∧ (s ∈ live → t' = t) ∧ (s ∉ live → s = malloc) := by
  obtain ⟨prev, found, hfind, hsome, hnone⟩ := h.find hcrowded content
  cases found with
  | some s =>
    obtain ⟨hs, hcontent⟩ := hsome s rfl
    refine ⟨t, s, chain, add_found hgiven hfind, ?_, ?_, hcontent, fun _ _ => rfl, fun _ => rfl,
      fun hs' => absurd hs hs'⟩
    · rwa [List.insert_of_mem hs]
    · rwa [List.insert_of_mem hs]
  | none =>
    obtain ⟨chain', hcreate⟩ := h.create hmalloc (hnone rfl)
    have hold : ∀ u ∈ live, (t.create malloc content).text u = t.text u := by
      intro u hu
      rw [text_create, text_write]
      rintro rfl
      exact hmalloc hu
    have hcontent : (t.create malloc content).content malloc = content :=
      content_of_text (by rw [text_create, text_write_self])
    have hlength : (malloc :: live).length ≤ t.numofslots + 1 := Nat.succ_le_succ hcrowded
    have hpos := h.shape.positive
    have hadd := @add_absent _ _ _ _ _ _ malloc _ hgiven hfind
    by_cases hmany : (t.create malloc content).slotused > t.numofslots
    · obtain ⟨t', chain'', hrun, hholds, hsize, htext⟩ :=
        hcreate.resize hlength (show 0 < t.numofslots * 2 by omega)
      rw [if_pos hmany, hrun] at hadd
      refine ⟨t', malloc, chain'', hadd, ?_, ?_, ?_, ?_, fun hs => absurd hs hmalloc, fun _ => rfl⟩
      · rwa [List.insert_of_not_mem hmalloc]
      · rw [List.insert_of_not_mem hmalloc, hsize]
        omega
      · rw [content_eq_of_text (htext malloc), hcontent]
      · intro u hu
        rw [htext u, hold u hu]
    · rw [if_neg hmany] at hadd
      have hused := hcreate.used
      refine ⟨_, malloc, chain', hadd, ?_, ?_, hcontent, hold, fun hs => absurd hs hmalloc,
        fun _ => rfl⟩
      · rwa [List.insert_of_not_mem hmalloc]
      · rw [List.insert_of_not_mem hmalloc, ← hused]
        exact Nat.le_of_not_lt hmany

end Add

/-! ### Release -/

theorem links_unlink_first (t : SQStringTable α) (s : α) (h : Nat) :
    (t.unlink s h none).links = t.links ∧
      (t.unlink s h none).buckets = Function.update t.buckets h (t.links s) :=
  ⟨rfl, rfl⟩

theorem links_unlink (t : SQStringTable α) (s p : α) (h : Nat) :
    (t.unlink s h (some p)).links = Function.update t.links p (t.links s) ∧
      (t.unlink s h (some p)).buckets = t.buckets := by
  refine ⟨?_, rfl⟩
  funext u
  by_cases hu : u = p
  · rw [hu, Function.update_self]
    simp [links, unlink]
  · rw [Function.update_of_ne hu]
    simp [links, unlink, hu]

theorem text_unlink (t : SQStringTable α) (s u : α) (h : Nat) (prev : Option α) :
    (t.unlink s h prev).text u = t.text u := by
  cases prev with
  | none => rfl
  | some p =>
    by_cases hu : u = p
    · rw [hu]
      simp [text, unlink]
    · simp [text, unlink, hu]

theorem numofslots_unlink (t : SQStringTable α) (s : α) (h : Nat) (prev : Option α) :
    (t.unlink s h prev).numofslots = t.numofslots := by
  cases prev <;> rfl

theorem slotused_unlink (t : SQStringTable α) (s : α) (h : Nat) (prev : Option α) :
    (t.unlink s h prev).slotused = t.slotused - 1 := by
  cases prev <;> rfl

/-- The chain of the string goes around it, and no other chain changes. -/
theorem Shape.linked_unlink (h : Shape t chain) {l₁ l₂ : List α}
    (hsplit : chain (t.position s) = l₁ ++ s :: l₂) {b : Nat} (hb : b < t.numofslots) :
    Linked (t.unlink s (t.position s) l₁.getLast?).links
      ((t.unlink s (t.position s) l₁.getLast?).buckets b) ((chain b).erase s) := by
  have hlt := position_lt h s
  have hlinked := h.linked _ hlt
  have hnodup := h.nodup _ hlt
  have hs : s ∉ l₁ := by
    intro hs
    rw [hsplit] at hnodup
    exact (List.nodup_append.mp hnodup).2.2 s hs s List.mem_cons_self rfl
  have herase : (chain (t.position s)).erase s = l₁ ++ l₂ := by
    rw [hsplit, List.erase_append_right _ hs, List.erase_cons_head]
  have hother : b ≠ t.position s → (chain b).erase s = chain b := fun hbs =>
    List.erase_of_not_mem fun hsb => hbs (h.placed b hb s hsb).symm
  rw [hsplit] at hlinked hnodup
  rcases List.eq_nil_or_concat l₁ with rfl | ⟨l, p, rfl⟩
  · obtain ⟨hlinks, hbuckets⟩ := links_unlink_first t s (t.position s)
    rw [List.getLast?_nil, hlinks, hbuckets]
    by_cases hbs : b = t.position s
    · rw [hbs, Function.update_self, herase]
      exact hlinked.tail
    · rw [Function.update_of_ne hbs, hother hbs]
      exact h.linked b hb
  · rw [List.concat_eq_append] at hsplit herase hlinked hnodup ⊢
    obtain ⟨hlinks, hbuckets⟩ := links_unlink t s p (t.position s)
    rw [List.getLast?_concat, hlinks, hbuckets]
    by_cases hbs : b = t.position s
    · rw [List.append_assoc, List.singleton_append] at hlinked hnodup herase
      rw [hbs, herase]
      exact hlinked.unlink hnodup
    · rw [hother hbs]
      refine (h.linked b hb).update_of_notMem (fun hpb => hbs ?_) _
      rw [← h.placed b hb p hpb]
      refine h.placed _ hlt p ?_
      rw [hsplit]
      simp

theorem Holds.remove (h : Holds t live chain) (hcrowded : live.length ≤ t.numofslots)
    (hs : s ∈ live) :
    ∃ t', t.remove s = .ok t' ∧ Holds t' (live.erase s) (fun b => (chain b).erase s) ∧
      t'.numofslots = t.numofslots ∧ ∀ u, t'.text u = t.text u := by
  have hlt := position_lt h.shape s
  have hlen := h.chain_length_le hlt
  obtain ⟨l₁, l₂, hsplit⟩ := List.append_of_mem ((h.mem_iff s).mpr hs)
  have hlinked := h.shape.linked _ hlt
  have hnodup := h.shape.nodup _ hlt
  have hbefore : ∀ u ∈ l₁, (u == s) = false := by
    rw [hsplit] at hnodup
    intro u hu
    rw [beq_eq_false_iff_ne]
    exact (List.nodup_append.mp hnodup).2.2 u hu s List.mem_cons_self
  have hwalk : locate t.links (· == s) (t.numofslots + 1) none (t.buckets (t.position s)) =
      some (l₁.getLast?, some s) := by
    rw [hsplit] at hlinked hlen
    exact locate_append _ hlinked (by omega) hbefore (beq_self_eq_true s)
  have hrun : t.remove s = .ok (t.unlink s (t.position s) l₁.getLast?) := by
    rw [position] at hwalk
    simp only [SQStringTable.remove, hwalk, position]
  have hsize := numofslots_unlink t s (t.position s) l₁.getLast?
  have htext := fun u => text_unlink t s u (t.position s) l₁.getLast?
  have hpos : ∀ u, (t.unlink s (t.position s) l₁.getLast?).position u = t.position u :=
    fun u => position_eq hsize (htext u)
  refine ⟨_, hrun, ⟨⟨?_, ?_, ?_, ?_⟩, ?_, ?_, ?_, ?_, ?_⟩, hsize, htext⟩
  · rw [hsize]
    exact h.shape.positive
  · intro b hb
    exact h.shape.linked_unlink hsplit (hsize ▸ hb)
  · intro b hb u hu
    rw [hpos]
    exact h.shape.placed b (hsize ▸ hb) u (List.mem_of_mem_erase hu)
  · intro b hb
    exact (h.shape.nodup b (hsize ▸ hb)).erase s
  · intro u
    have hu := position_lt h.shape u
    rw [hpos, (h.shape.nodup _ hu).mem_erase_iff, h.nodup.mem_erase_iff, h.mem_iff]
  · exact h.nodup.erase s
  · rw [slotused_unlink, List.length_erase_of_mem hs, h.used]
  · intro u hu
    rw [htext, content_eq_of_text (htext u)]
    exact h.stored u (List.mem_of_mem_erase hu)
  · intro u hu v hv huv
    rw [content_eq_of_text (htext u), content_eq_of_text (htext v)] at huv
    exact h.distinct u (List.mem_of_mem_erase hu) v (List.mem_of_mem_erase hv) huv

end Holds

end Sqnim.Object.SQStringTable
