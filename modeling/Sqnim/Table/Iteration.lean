import Sqnim.Table.Operations

/-!
# Next and Clone

`Next` finds the first occupied node at or after a position. Calling it until it
fails lists the entries in the order of their nodes, and `Clone` stores them in
that order.
-/
namespace Sqnim.Table

variable {K V : Type} {env : Env K V}

namespace SQTable

section Next

/-- The entries of `steps` nodes from `idx`, as `Next` reports them. -/
def entriesFrom (t : SQTable K V) (seen : V → V) : Nat → Nat → List (K × V)
  | 0, _ => []
  | steps + 1, idx =>
    match t.keyAt idx with
    | some k => (k, seen (t.valAt idx)) :: t.entriesFrom seen steps (idx + 1)
    | none => t.entriesFrom seen steps (idx + 1)

variable {t : SQTable K V} {seen : V → V}

theorem mem_entriesFrom {steps idx : Nat} {k : K} {v : V} :
    (k, v) ∈ t.entriesFrom seen steps idx ↔
      ∃ i, idx ≤ i ∧ i < idx + steps ∧ t.keyAt i = some k ∧ v = seen (t.valAt i) := by
  induction steps generalizing idx with
  | zero =>
    refine iff_of_false List.not_mem_nil ?_
    rintro ⟨i, hle, hlt, -⟩
    omega
  | succ steps ih =>
    have hsplit : (∃ i, idx ≤ i ∧ i < idx + (steps + 1) ∧ t.keyAt i = some k ∧
        v = seen (t.valAt i)) ↔ (t.keyAt idx = some k ∧ v = seen (t.valAt idx)) ∨
          ∃ i, idx + 1 ≤ i ∧ i < idx + 1 + steps ∧ t.keyAt i = some k ∧ v = seen (t.valAt i) := by
      constructor
      · rintro ⟨i, hle, hlt, hi⟩
        rcases hle.eq_or_lt with rfl | hlt'
        · exact .inl hi
        · exact .inr ⟨i, hlt', by omega, hi⟩
      · rintro (hi | ⟨i, hle, hlt, hi⟩)
        · exact ⟨idx, le_refl _, by omega, hi⟩
        · exact ⟨i, by omega, by omega, hi⟩
    rw [hsplit, ← ih, entriesFrom]
    cases hk : t.keyAt idx with
    | none => simp
    | some k' => simp [eq_comm]

theorem nodup_entriesFrom (hu : ∀ {i j k}, t.keyAt i = some k → t.keyAt j = some k → i = j)
    (steps idx : Nat) : ((t.entriesFrom seen steps idx).map Prod.fst).Nodup := by
  induction steps generalizing idx with
  | zero => exact List.nodup_nil
  | succ steps ih =>
    rw [entriesFrom]
    cases hk : t.keyAt idx with
    | none => exact ih (idx + 1)
    | some k =>
      rw [List.map_cons, List.nodup_cons]
      refine ⟨fun hmem => ?_, ih (idx + 1)⟩
      obtain ⟨⟨k', v⟩, hkv, rfl⟩ := List.mem_map.mp hmem
      obtain ⟨i, hle, -, hi, -⟩ := mem_entriesFrom.mp hkv
      have hidx := hu hi hk
      omega

theorem nextFrom_spec (t : SQTable K V) (seen : V → V) (steps idx : Nat) :
    (t.nextFrom steps idx = none ∧ t.entriesFrom seen steps idx = []) ∨
      ∃ j k, t.nextFrom steps idx = some (j + 1, k, t.valAt j) ∧ idx ≤ j ∧ j < idx + steps ∧
        t.keyAt j = some k ∧ (∀ i, idx ≤ i → i < j → t.keyAt i = none) ∧
        t.entriesFrom seen steps idx =
          (k, seen (t.valAt j)) :: t.entriesFrom seen (idx + steps - (j + 1)) (j + 1) := by
  induction steps generalizing idx with
  | zero => exact .inl ⟨rfl, rfl⟩
  | succ steps ih =>
    have hnode : (t.nodes idx).key = t.keyAt idx := rfl
    rw [nextFrom, entriesFrom, hnode]
    cases hk : t.keyAt idx with
    | some k =>
      refine .inr ⟨idx, k, rfl, le_refl _, by omega, hk, fun i hle hlt => by omega, ?_⟩
      have hrest : idx + (steps + 1) - (idx + 1) = steps := by omega
      rw [hrest]
    | none =>
      rcases ih (idx + 1) with ⟨hn, he⟩ | ⟨j, k, hn, hle, hlt, hj, hskip, he⟩
      · exact .inl ⟨hn, he⟩
      · refine .inr ⟨j, k, hn, by omega, by omega, hj, fun i hle' hlt' => ?_, ?_⟩
        · rcases hle'.eq_or_lt with rfl | hgt
          · exact hk
          · exact hskip i hgt hlt'
        · have hrest : idx + (steps + 1) - (j + 1) = idx + 1 + steps - (j + 1) := by omega
          rw [hrest]
          exact he

/-- `sq_next` from a position lists the entries at and after it, and then fails. -/
theorem iterate_spec {fuel : Nat} (pos : Option Nat)
    (hf : t.numOfNodes - translateIndex pos < fuel) :
    t.iterate env fuel pos =
      .ok (t.entriesFrom env.realval (t.numOfNodes - translateIndex pos) (translateIndex pos)) := by
  induction fuel generalizing pos with
  | zero => omega
  | succ fuel ih =>
    set idx := translateIndex pos with hidx
    rw [iterate]
    rcases nextFrom_spec t env.realval (t.numOfNodes - idx) idx with
      ⟨hn, he⟩ | ⟨j, k, hn, hle, hlt, -, -, he⟩
    · have hnext : t.next env false pos = none := by
        rw [next, ← hidx, hn]
        rfl
      rw [hnext, he]
    · have hnext : t.next env false pos = some (j + 1, k, env.realval (t.valAt j)) := by
        rw [next, ← hidx, hn]
        rfl
      have hrest : idx + (t.numOfNodes - idx) - (j + 1) = t.numOfNodes - (j + 1) := by omega
      have hih := ih (some (j + 1)) (by simp only [translateIndex]; omega)
      rw [hnext, he, hrest]
      simp only [hih, bind, Except.bind]
      rfl

end Next

section Clone

variable [DecidableEq K] {t : SQTable K V} (h : WellFormed env t) (fuel : Nat)
include h

/-- The copying loop: a table that holds the entries below `ridx` ends up with all of them. -/
theorem WellFormed.cloneLoop_spec (steps : Nat) {ridx : Nat} {nt : SQTable K V} {m : K → Option V}
    (hsteps : t.numOfNodes - ridx < steps) (hnt : WellFormed env nt) (hm : nt.Contents m)
    (hmem : ∀ k v, m k = some v ↔ ∃ j < ridx, t.keyAt j = some k ∧ t.valAt j = v) :
    ∃ nt' m', t.cloneLoop env (newSlot env (fuel + 2)) steps ridx nt = .ok nt' ∧
      WellFormed env nt' ∧ nt'.Contents m' ∧
      ∀ k v, m' k = some v ↔ ∃ j, t.keyAt j = some k ∧ t.valAt j = v := by
  induction steps generalizing ridx nt m with
  | zero => omega
  | succ steps ih =>
    rw [cloneLoop]
    rcases nextFrom_spec t id (t.numOfNodes - ridx) ridx with
      ⟨hn, he⟩ | ⟨j, k, hn, hle, hlt, hj, hskip, -⟩
    · have hnext : t.next env true (some ridx) = none := by
        rw [next, translateIndex, hn]
        rfl
      rw [hnext]
      refine ⟨nt, m, rfl, hnt, hm, fun k v => (hmem k v).trans ?_⟩
      constructor
      · rintro ⟨j, -, hj⟩
        exact ⟨j, hj⟩
      · rintro ⟨j, hj⟩
        refine ⟨j, ?_, hj⟩
        by_contra hge
        have hlt := h.lt_of_key hj.1
        have hmem' : (k, v) ∈ t.entriesFrom id (t.numOfNodes - ridx) ridx :=
          mem_entriesFrom.mpr ⟨j, by omega, by omega, hj.1, hj.2.symm⟩
        rw [he] at hmem'
        exact List.not_mem_nil hmem'
    · have hnext : t.next env true (some ridx) = some (j + 1, k, t.valAt j) := by
        rw [next, translateIndex, hn]
        rfl
      obtain ⟨nt₁, created, hns, hwf₁, -, hm₁⟩ := hnt.newSlot_spec hm k (t.valAt j) fuel
      have hmem₁ : ∀ k' v, Function.update m k (some (t.valAt j)) k' = some v ↔
          ∃ i < j + 1, t.keyAt i = some k' ∧ t.valAt i = v := by
        intro k' v
        by_cases hkk : k' = k
        · subst hkk
          rw [Function.update_self, Option.some.injEq]
          constructor
          · rintro rfl
            exact ⟨j, Nat.lt_succ_self j, hj, rfl⟩
          · rintro ⟨i, -, hi, hv⟩
            rwa [h.unique hi hj] at hv
        · rw [Function.update_of_ne hkk, hmem]
          constructor
          · rintro ⟨i, hi, hik⟩
            exact ⟨i, by omega, hik⟩
          · rintro ⟨i, hi, hik⟩
            refine ⟨i, ?_, hik⟩
            by_contra hge
            rcases (Nat.lt_succ_iff.mp hi).eq_or_lt with rfl | hij
            · rw [hj, Option.some.injEq] at hik
              exact hkk hik.1.symm
            · rw [hskip i (not_lt.mp hge) hij] at hik
              cases hik.1
      obtain ⟨nt', m', hrun, hwf', hm', hmem'⟩ := ih (by omega) hwf₁ hm₁ hmem₁
      refine ⟨nt', m', ?_, hwf', hm', hmem'⟩
      rw [hnext]
      simp only [hns, bind, Except.bind]
      exact hrun

/-- `Clone` makes a valid table of the same contents, under the same delegate. -/
theorem WellFormed.clone_spec {m : K → Option V} (hm : t.Contents m) :
    ∃ nt, t.clone env (fuel + 2) = .ok nt ∧ WellFormed env nt ∧ nt.delegate = t.delegate ∧
      nt.Contents m := by
  obtain ⟨nt₀, hcreate, hwf₀, hm₀⟩ := create_spec env t.numOfNodes
  have hmem₀ : ∀ k v, (fun _ : K => (none : Option V)) k = some v ↔
      ∃ j < 0, t.keyAt j = some k ∧ t.valAt j = v := by
    intro k v
    refine iff_of_false nofun ?_
    rintro ⟨j, hj, -⟩
    exact absurd hj (Nat.not_lt_zero j)
  obtain ⟨nt, m', hrun, hwf, hm', hmem⟩ :=
    h.cloneLoop_spec fuel (t.numOfNodes + 1) (by omega) hwf₀ hm₀ hmem₀
  have heq : m' = m := by
    funext k
    refine Option.ext fun v => ?_
    rw [hmem, hm]
  refine ⟨{ nt with delegate := t.delegate }, ?_, 
    WellFormed.congr (t := nt) rfl (fun _ => rfl) rfl hwf rfl rfl, rfl, ?_⟩
  · simp only [clone, hcreate, bind, Except.bind, hrun]
    rfl
  · exact heq ▸ hm'

end Clone

end SQTable

end Sqnim.Table
