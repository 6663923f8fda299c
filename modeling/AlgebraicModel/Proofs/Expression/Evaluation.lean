import Mathlib
import AlgebraicModel.Proofs.Except.Failure
import AlgebraicModel.Proofs.Expression.Denotation

/-!
# When an expression has values

An evaluation asks for the value of every record of a variable, slot by slot and term by term, and
for nothing else. Over any numbers it fails with the first variable that has no value, and an
assignment that covers the variables gives every slot a value.

## Main definitions

* `Assignment.missing?`: the first of some variables that has no value

## Main results

* `Expression.failure?_values`: the error of an evaluation
* `Expression.exists_evaluate`: a covering assignment gives every slot a value
-/

namespace AlgebraicModel

variable {α β : Type} {σ : Assignment α}

/-! ## Missing values -/

namespace Assignment

/-- The first of the variables that has no value. -/
def missing? (σ : Assignment α) (vs : List Variable) : Option VariableId :=
  (vs.find? fun v => (σ v.id).isNone).map (·.id)

theorem missing?_eq_none_iff {vs : List Variable} : σ.missing? vs = none ↔ σ.Covers vs := by
  simp [missing?, Covers, Option.isSome_iff_ne_none]

theorem missing?_flatMap (f : β → List Variable) (xs : List β) :
    σ.missing? (xs.flatMap f) = xs.findSome? fun x => σ.missing? (f x) := by
  rw [missing?, List.find?_flatMap, List.map_findSome?]
  rfl

theorem failure?_value (id : VariableId) :
    failure? (σ.value id) = if (σ id).isNone then some id else none := by
  unfold value
  cases σ id <;> rfl

/-- Looking up one variable after the other fails with the first that has no value. -/
theorem findSome?_value (vs : List Variable) :
    (vs.findSome? fun v => failure? (σ.value v.id)) = σ.missing? vs := by
  simp only [failure?_value, missing?, findSome?_ite, Bool.decide_eq_true]

end Assignment

/-! ## The error of an evaluation -/

variable [Scalar α]

theorem Monomial.failure?_evaluate (m : Monomial α) :
    failure? (m.evaluate σ) = σ.missing? m.bases := by
  rw [evaluate, failure?_foldlM (g := fun f => failure? (σ.value f.base.id)), bases,
    ← Assignment.findSome?_value, List.findSome?_map]
  · rfl
  · exact fun c f _ => failure?_map (fun x => c * Scalar.pow x f.exponent) (σ.value f.base.id)

theorem Polynomial.failure?_evaluate (p : Polynomial α) :
    failure? (p.evaluate σ) = σ.missing? (p.terms.flatMap (·.bases)) := by
  have hterms : failure? (p.evaluate σ) = failure? (p.terms.mapM (·.evaluate σ)) :=
    failure?_map total _
  rw [hterms, failure?_mapM fun t _ => t.failure?_evaluate, Assignment.missing?_flatMap]

namespace Expression

/-- An evaluation fails with the first variable that has no value. -/
theorem failure?_values (e : Expression α) : failure? (e.values σ) = σ.missing? e.bases := by
  cases e with
  | const xs => rfl
  | var vs => exact (failure?_mapM fun v _ => rfl).trans (Assignment.findSome?_value vs.toList)
  | mono ms =>
    exact (failure?_mapM fun m _ => m.failure?_evaluate).trans
      (Assignment.missing?_flatMap Monomial.bases ms.toList).symm
  | poly ps =>
    exact (failure?_mapM fun p _ => p.failure?_evaluate).trans
      (Assignment.missing?_flatMap (fun p : Polynomial α => p.terms.flatMap (·.bases))
        ps.toList).symm

theorem length_values {e : Expression α} {xs : List α} (h : e.values σ = .ok xs) :
    xs.length = e.length := by
  cases e with
  | const ys =>
    obtain rfl := Except.ok.inj h
    rfl
  | var vs => exact (mapM_eq_ok_iff.mp h).length_eq.symm
  | mono ms => exact (mapM_eq_ok_iff.mp h).length_eq.symm
  | poly ps => exact (mapM_eq_ok_iff.mp h).length_eq.symm

/-- **An assignment that covers the variables gives every slot a value**, whatever the numbers. -/
theorem exists_evaluate {e : Expression α} (h : σ.Covers e.vars) :
    ∃ xs, e.evaluate σ = .ok xs ∧ xs.length = e.length := by
  have hnone : failure? (e.values σ) = none := by
    rw [failure?_values]
    exact Assignment.missing?_eq_none_iff.mpr (Assignment.covers_distinct_iff.mp h)
  obtain ⟨xs, hxs⟩ := failure?_eq_none_iff.mp hnone
  exact ⟨xs, mapError_eq_ok_iff.mpr hxs, length_values hxs⟩

end Expression

end AlgebraicModel
