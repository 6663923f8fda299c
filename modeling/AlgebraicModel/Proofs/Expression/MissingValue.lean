import Mathlib
import AlgebraicModel.Proofs.Expression.Evaluation
import AlgebraicModel.Scalar.Double

/-!
# The variable that has no value

An evaluation walks through slots, terms and factors and asks for a value at every record of a
variable, repeated ones included. The variables of an expression are listed once each. Both orders
name the same variable as the first without a value, since the first record of an identity is the
one that stands in the list: a repeated one comes too late to be the first to fail.

## Main results

* `Variable.find?_distinct`: leaving out repeated identities does not change which one comes first
* `Expression.failure?_evaluate`: an evaluation fails with the first variable without a value
* `Expression.values_congr`: only the values of the variables that occur are looked at
* `Expression.evaluate_fails_on_missing`: success, failure and what they depend on
-/

namespace AlgebraicModel

variable {α : Type}

/-! ## First occurrences -/

/-- **The first variable with a property of its identity** is among the first occurrences, and is
the first there. -/
theorem Variable.find?_distinct (p : VariableId → Bool) (vs : List Variable) :
    (distinct vs).find? (fun v => p v.id) = vs.find? fun v => p v.id := by
  induction vs with
  | nil => rfl
  | cons v vs ih =>
    rw [distinct, List.find?_cons, List.find?_cons, List.find?_filter]
    cases hv : p v.id with
    | true => rfl
    | false =>
      have hother (u : Variable) :
          decide (decide (u.id ≠ v.id) = true ∧ p u.id = true) = p u.id := by
        by_cases hid : u.id = v.id
        · rw [hid, hv]
          simp
        · simp [hid]
      simp only [hother]
      exact ih

namespace Assignment

variable {σ : Assignment α}

theorem missing?_distinct (vs : List Variable) :
    σ.missing? (Variable.distinct vs) = σ.missing? vs :=
  congrArg (Option.map fun v : Variable => v.id)
    (Variable.find?_distinct (fun id => (σ id).isNone) vs)

/-- The first variable without a value: all before it have one. -/
theorem missing?_eq_some_iff {vs : List Variable} {id : VariableId} :
    σ.missing? vs = some id ↔ ∃ us v ws, vs = us ++ v :: ws ∧ σ.Covers us ∧ σ v.id = none ∧
      v.id = id := by
  rw [missing?, Option.map_eq_some_iff]
  constructor
  · rintro ⟨v, hfind, hid⟩
    obtain ⟨hv, us, ws, hsplit, hus⟩ := List.find?_eq_some_iff_append.mp hfind
    refine ⟨us, v, ws, hsplit, ?_, Option.isNone_iff_eq_none.mp hv, hid⟩
    intro u hu
    simpa using hus u hu
  · rintro ⟨us, v, ws, hsplit, hus, hv, hid⟩
    refine ⟨v, List.find?_eq_some_iff_append.mpr ⟨by simp [hv], us, ws, hsplit, ?_⟩, hid⟩
    intro u hu
    simpa using hus u hu

end Assignment

/-! ## Which values are looked at -/

section Congr

variable {σ τ : Assignment α}

/-- A value is looked up by the identity of a variable. -/
theorem Assignment.value_congr {id : VariableId} (h : σ id = τ id) : σ.value id = τ.value id := by
  unfold value
  rw [h]

variable [Scalar α]

theorem Monomial.evaluate_congr {m : Monomial α} (h : ∀ v ∈ m.bases, σ v.id = τ v.id) :
    m.evaluate σ = m.evaluate τ := by
  apply foldlM_congr
  intro product f hf
  rw [Assignment.value_congr (h f.base (List.mem_map_of_mem hf))]

theorem Polynomial.evaluate_congr {p : Polynomial α}
    (h : ∀ t ∈ p.terms, ∀ v ∈ t.bases, σ v.id = τ v.id) : p.evaluate σ = p.evaluate τ := by
  have hterms : p.terms.mapM (·.evaluate σ) = p.terms.mapM (·.evaluate τ) :=
    mapM_congr fun t ht => Monomial.evaluate_congr (h t ht)
  rw [evaluate, evaluate, hterms]

namespace Expression

variable {e : Expression α}

/-- **Only the values of the variables that occur are looked at.** -/
theorem values_congr (h : ∀ v ∈ e.bases, σ v.id = τ v.id) : e.values σ = e.values τ := by
  cases e with
  | const xs => rfl
  | var vs => exact mapM_congr fun v hv => Assignment.value_congr (h v hv)
  | mono ms =>
    apply mapM_congr
    intro m hm
    apply Monomial.evaluate_congr
    intro v hv
    exact h v (List.mem_flatMap.mpr ⟨m, hm, hv⟩)
  | poly ps =>
    apply mapM_congr
    intro p hp
    apply Polynomial.evaluate_congr
    intro t ht v hv
    exact h v (List.mem_flatMap.mpr ⟨p, hp, List.mem_flatMap.mpr ⟨t, ht, hv⟩⟩)

end Expression

end Congr

/-! ## Success and failure -/

namespace Expression

variable [Scalar α] {σ : Assignment α}

/-- **An evaluation fails with the first variable without a value**, in the order in which the
variables of the expression are listed. -/
theorem failure?_evaluate (e : Expression α) :
    failure? (e.evaluate σ) = (σ.missing? e.vars).map .missingAssignment := by
  rw [evaluate, failure?_mapError, failure?_values, vars, Assignment.missing?_distinct]

theorem length_of_evaluate {e : Expression α} {xs : List α} (h : e.evaluate σ = .ok xs) :
    xs.length = e.length :=
  length_values (mapError_eq_ok_iff.mp h)

theorem exists_evaluate_iff {e : Expression α} :
    (∃ xs, e.evaluate σ = .ok xs) ↔ σ.Covers e.vars := by
  rw [← failure?_eq_none_iff, failure?_evaluate, Option.map_eq_none_iff,
    Assignment.missing?_eq_none_iff]

theorem evaluate_eq_error_iff {e : Expression α} {cause : Error α} :
    e.evaluate σ = .error cause ↔ ∃ us v ws, e.vars = us ++ v :: ws ∧ σ.Covers us ∧
      σ v.id = none ∧ cause = .missingAssignment v.id := by
  rw [← failure?_eq_some_iff, failure?_evaluate, Option.map_eq_some_iff]
  simp only [Assignment.missing?_eq_some_iff]
  constructor
  · rintro ⟨id, ⟨us, v, ws, hsplit, hus, hv, rfl⟩, rfl⟩
    exact ⟨us, v, ws, hsplit, hus, hv, rfl⟩
  · rintro ⟨us, v, ws, hsplit, hus, hv, rfl⟩
    exact ⟨v.id, ⟨us, v, ws, hsplit, hus, hv, rfl⟩, rfl⟩

/-- **An evaluation fails exactly on a missing value, and names the variable.** It has a value for
every slot if and only if every variable of the expression has one, and otherwise reports the first
variable of the list that has none. Values of other variables do not matter. -/
theorem evaluate_fails_on_missing (e : Expression α) (σ : Assignment α) :
    ((∃ xs, e.evaluate σ = .ok xs ∧ xs.length = e.length) ↔ ∀ v ∈ e.vars, (σ v.id).isSome) ∧
    (∀ xs, e.evaluate σ = .ok xs → xs.length = e.length) ∧
    (∀ cause, e.evaluate σ = .error cause ↔ ∃ us v ws, e.vars = us ++ v :: ws ∧
      (∀ u ∈ us, (σ u.id).isSome) ∧ σ v.id = none ∧ cause = .missingAssignment v.id) ∧
    ∀ τ : Assignment α, (∀ v ∈ e.vars, σ v.id = τ v.id) → e.evaluate σ = e.evaluate τ := by
  refine ⟨?_, fun xs h => length_of_evaluate h, fun cause => evaluate_eq_error_iff, ?_⟩
  · constructor
    · rintro ⟨xs, hxs, -⟩
      exact exists_evaluate_iff.mp ⟨xs, hxs⟩
    · intro hcovers
      obtain ⟨xs, hxs⟩ := exists_evaluate_iff.mpr hcovers
      exact ⟨xs, hxs, length_of_evaluate hxs⟩
  · intro τ hagree
    have hbases : ∀ v ∈ e.bases, σ v.id = τ v.id :=
      (Variable.forall_distinct_iff (p := fun id => σ id = τ id)).mp hagree
    rw [evaluate, evaluate, values_congr hbases]

/-- The column of `2 * y * x` and `y + z * x`, by records of `x` with different bounds, where only
`y` has a value, and where only `z` has none. -/
theorem evaluate_fails_on_missing_repeated :
    let x : Variable := ⟨⟨1⟩, .unit, .binary⟩
    let x' : Variable := ⟨⟨1⟩, .unbounded, .integer⟩
    let y : Variable := ⟨⟨2⟩, .unit, .continuous⟩
    let z : Variable := ⟨⟨3⟩, .unit, .continuous⟩
    let e : Expression Float := poly (.vector
      [⟨[⟨2, [⟨y, 1⟩, ⟨x, 1⟩]⟩]⟩, ⟨[⟨1, [⟨y, 1⟩]⟩, ⟨1, [⟨z, 1⟩, ⟨x', 1⟩]⟩]⟩])
    let σ : Assignment Float := .ofList [(y.id, 4)]
    let τ : Assignment Float := .ofList [(x.id, 5), (y.id, 4)]
    e.vars = [y, x, z] ∧ e.evaluate σ = .error (.missingAssignment x.id) ∧
      e.evaluate τ = .error (.missingAssignment z.id) ∧
      (∃ xs, e.evaluate (.ofList [(x.id, 5), (y.id, 4), (z.id, 7)]) = .ok xs ∧ xs.length = 2) := by
  intro x x' y z e σ τ
  have hvars : e.vars = [y, x, z] := rfl
  refine ⟨hvars, ?_, ?_, ?_⟩
  · apply ((evaluate_fails_on_missing e σ).2.2.1 _).mpr
    exact ⟨[y], x, [z], hvars, by simp [σ, Assignment.ofList], rfl, rfl⟩
  · apply ((evaluate_fails_on_missing e τ).2.2.1 _).mpr
    exact ⟨[y, x], z, [], hvars, by simp [τ, x, y, Assignment.ofList], rfl, rfl⟩
  · apply (evaluate_fails_on_missing e _).1.mpr
    intro v hv
    rw [hvars] at hv
    fin_cases hv <;> rfl

end Expression

end AlgebraicModel
