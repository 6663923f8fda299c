import Mathlib
import AlgebraicModel.Expression.Evaluation
import AlgebraicModel.Proofs.Except.Traversal
import AlgebraicModel.Proofs.Scalar.Exact
import AlgebraicModel.Proofs.Variable.Distinct

/-!
# What an expression means

With a rational for every variable, an expression has a value in every slot: monomials are
products, polynomials sums. Evaluation under an assignment that covers the variables finds these
values.

## Main definitions

* `Valuation`: a rational for every variable
* `Monomial.denote`, `Polynomial.denote`, `Expression.denote`: the meaning at a valuation
* `Assignment.Gives`, `Covers`: an assignment has the values of a valuation, or of some valuation
* `Assignment.point?`: the values of a list of variables, if all have one

## Main results

* `Expression.evaluate_eq_denote`: evaluation computes the meaning
-/

namespace AlgebraicModel

/-- A rational for every variable. -/
abbrev Valuation := VariableId → ℚ

variable {ρ : Valuation} {σ : Assignment ℚ}

/-! ## Meaning -/

/-- The product of the powers. -/
def Factor.denote (fs : List Factor) (ρ : Valuation) : ℚ :=
  (fs.map fun f => ρ f.base.id ^ f.exponent).prod

namespace Monomial

def denote (m : Monomial ℚ) (ρ : Valuation) : ℚ :=
  m.coefficient * Factor.denote m.factors ρ

@[simp] theorem denote_const (c : ℚ) : (const c).denote ρ = c := by
  simp [denote, const, Factor.denote]

@[simp] theorem denote_ofVariable (v : Variable) : (ofVariable v).denote ρ = ρ v.id := by
  simp only [denote, ofVariable, Factor.denote, List.map_cons, List.map_nil, List.prod_cons,
    List.prod_nil, pow_one, mul_one]
  exact one_mul _

end Monomial

namespace Polynomial

def denote (p : Polynomial ℚ) (ρ : Valuation) : ℚ :=
  (p.terms.map (·.denote ρ)).sum

/-- A monomial lifted to a polynomial keeps its meaning, also when it is dropped. -/
@[simp] theorem denote_ofMonomial (m : Monomial ℚ) : (ofMonomial m).denote ρ = m.denote ρ := by
  by_cases hm : m.coefficient = 0
  · have hterms : (ofMonomial m).terms = [] := by
      simp [ofMonomial, ofTerms, Monomial.insert, hm]
    simp [denote, hterms, Monomial.denote, hm]
  · have hterms : (ofMonomial m).terms = [m] := by
      simp [ofMonomial, ofTerms, Monomial.insert, hm]
    simp [denote, hterms]

end Polynomial

/-- The value of every slot. -/
def Expression.denote (e : Expression ℚ) (ρ : Valuation) : List ℚ :=
  match e with
  | const xs => xs.toList
  | var vs => vs.toList.map fun v => ρ v.id
  | mono ms => ms.toList.map (·.denote ρ)
  | poly ps => ps.toList.map (·.denote ρ)

@[simp] theorem Expression.length_denote (e : Expression ℚ) : (e.denote ρ).length = e.length := by
  cases e <;> simp [denote, length, Slots.length]

/-- The meaning does not depend on the family in which an expression is read. -/
theorem Expression.denote_polynomials (e : Expression ℚ) :
    e.polynomials.map (·.denote ρ) = e.denote ρ := by
  cases e <;> simp [polynomials, denote, Function.comp_def]

/-! ## Assignments -/

/-- The assignment has the values of the valuation at the given variables. -/
def Assignment.Gives (σ : Assignment ℚ) (ρ : Valuation) (vs : List Variable) : Prop :=
  ∀ v ∈ vs, σ v.id = some (ρ v.id)

/-- The assignment has a value for each of the variables. -/
def Assignment.Covers {α : Type} (σ : Assignment α) (vs : List Variable) : Prop :=
  ∀ v ∈ vs, (σ v.id).isSome

/-- The values of the variables in order, if each of them has one. -/
def Assignment.point? {α : Type} (σ : Assignment α) (vs : List Variable) : Option (List α) :=
  vs.mapM fun v => σ v.id

theorem Assignment.value_eq_ok {v : Variable} (h : σ v.id = some (ρ v.id)) :
    σ.value v.id = .ok (ρ v.id) := by
  simp [value, h]

theorem Assignment.covers_append_iff {α : Type} {σ : Assignment α} {us vs : List Variable} :
    σ.Covers (us ++ vs) ↔ σ.Covers us ∧ σ.Covers vs :=
  List.forall_mem_append

/-- What covers the variables that occur covers every record of them. -/
theorem Assignment.covers_distinct_iff {α : Type} {σ : Assignment α} {vs : List Variable} :
    σ.Covers (Variable.distinct vs) ↔ σ.Covers vs :=
  Variable.forall_distinct_iff (p := fun id => (σ id).isSome)

theorem Assignment.Covers.exists_gives {vs : List Variable} (h : σ.Covers vs) :
    ∃ ρ : Valuation, σ.Gives ρ vs := by
  refine ⟨fun id => (σ id).getD 0, fun v hv => ?_⟩
  obtain ⟨x, hx⟩ := Option.isSome_iff_exists.mp (h v hv)
  simp [hx]

/-- A point gives every variable of the list its coordinate. -/
theorem Assignment.point?_eq_some_iff {vs : List Variable} {x : List ℚ} (hρ : σ.Gives ρ vs) :
    σ.point? vs = some x ↔ x = vs.map fun v => ρ v.id := by
  have hpoint : σ.point? vs = some (vs.map fun v => ρ v.id) := by
    induction vs with
    | nil => rfl
    | cons v vs ih =>
      have hrest := ih fun u hu => hρ u (by simp [hu])
      simp only [point?] at hrest
      simp [point?, hρ v (by simp), hrest]
  rw [hpoint, Option.some.injEq, eq_comm]

/-! ## Evaluation -/

theorem Factor.foldl_powers (c : ℚ) (fs : List Factor) :
    fs.foldl (fun c f => c * ρ f.base.id ^ f.exponent) c = c * denote fs ρ := by
  induction fs generalizing c with
  | nil => simp [denote]
  | cons f fs ih => rw [List.foldl_cons, ih]; simp [denote, mul_assoc]

theorem Monomial.evaluate_eq_denote {m : Monomial ℚ} (h : σ.Gives ρ m.bases) :
    m.evaluate σ = .ok (m.denote ρ) := by
  have hstep : ∀ c, ∀ f ∈ m.factors,
      (do return c * Scalar.pow (← σ.value f.base.id) f.exponent : Except VariableId ℚ) =
        .ok (c * ρ f.base.id ^ f.exponent) := by
    intro c f hf
    rw [Assignment.value_eq_ok (h f.base (List.mem_map_of_mem hf))]
    rfl
  rw [evaluate, foldlM_eq_ok_foldl hstep, Factor.foldl_powers, denote]

theorem Polynomial.evaluate_eq_denote {p : Polynomial ℚ}
    (h : σ.Gives ρ (p.terms.flatMap (·.bases))) : p.evaluate σ = .ok (p.denote ρ) := by
  have hterms : p.terms.mapM (·.evaluate σ) = .ok (p.terms.map (·.denote ρ)) :=
    mapM_eq_ok_map fun t ht => Monomial.evaluate_eq_denote fun v hv =>
      h v (List.mem_flatMap.mpr ⟨t, ht, hv⟩)
  rw [evaluate, hterms, ok_bind, total_eq_sum]
  rfl

namespace Expression

theorem values_eq_denote {e : Expression ℚ} (h : σ.Gives ρ e.bases) :
    e.values σ = .ok (e.denote ρ) := by
  cases e with
  | const xs => rfl
  | var vs => exact mapM_eq_ok_map fun v hv => Assignment.value_eq_ok (h v hv)
  | mono ms =>
    exact mapM_eq_ok_map fun m hm => Monomial.evaluate_eq_denote fun v hv =>
      h v (List.mem_flatMap.mpr ⟨m, hm, hv⟩)
  | poly ps =>
    exact mapM_eq_ok_map fun p hp => Polynomial.evaluate_eq_denote fun v hv =>
      h v (List.mem_flatMap.mpr ⟨p, hp, hv⟩)

/-- **Evaluation computes the meaning** under every assignment that covers the variables. -/
theorem evaluate_eq_denote {e : Expression ℚ} (h : σ.Gives ρ e.bases) :
    e.evaluate σ = .ok (e.denote ρ) :=
  mapError_eq_ok_iff.mpr (values_eq_denote h)

end Expression

end AlgebraicModel
