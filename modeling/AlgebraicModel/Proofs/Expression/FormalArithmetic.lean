import Mathlib
import AlgebraicModel.Proofs.Expression.Formal
import AlgebraicModel.Proofs.Expression.Product

/-!
# Formal arithmetic

Every slot of an expression is a formal polynomial in the identities of the variables, whichever
family the expression belongs to. Formal polynomials over the rationals are determined by their
values, so whatever an operation does to the values it does to the formal polynomials.

## Main definitions

* `Expression.formal`: the formal polynomial of every slot

## Main results

* `Monomial.formal_normalize`, `Polynomial.formal_ofTerms`: normalizing and collecting like terms
* `Expression.formal_ext`: formal polynomials with the same values are the same
* `Expression.formal_add`, `formal_mul`: the formal polynomials of sums and products
-/

namespace AlgebraicModel

open MvPolynomial (C X eval)

variable {ρ : Valuation}

/-! ## Monomials and polynomials -/

/-- Zero exponents, and the factors of a zero, do not show in the formal polynomial. -/
theorem Monomial.formal_normalize (c : ℚ) (fs : List Factor) :
    (normalize c fs).formal = MvPolynomial.monomial (Factor.exponents fs) c := by
  refine MvPolynomial.funext fun ρ => ?_
  rw [eval_formal, denote_normalize, MvPolynomial.eval_monomial, Factor.prod_exponents]

@[simp] theorem Monomial.formal_const (c : ℚ) : (const c).formal = C c := by
  refine MvPolynomial.funext fun ρ => ?_
  rw [eval_formal, denote_const, MvPolynomial.eval_C]

@[simp] theorem Monomial.formal_ofVariable (v : Variable) :
    (ofVariable v : Monomial ℚ).formal = X v.id := by
  refine MvPolynomial.funext fun ρ => ?_
  rw [eval_formal, denote_ofVariable, MvPolynomial.eval_X]

namespace Polynomial

theorem formal_ofTerms (ts : List (Monomial ℚ)) : (ofTerms ts).formal = (ts.map (·.formal)).sum := by
  refine MvPolynomial.funext fun ρ => ?_
  simp [map_list_sum, Function.comp_def]

@[simp] theorem formal_ofMonomial (m : Monomial ℚ) : (ofMonomial m).formal = m.formal := by
  simp [ofMonomial, formal_ofTerms]

end Polynomial

/-! ## Expressions -/

namespace Expression

variable {a b e : Expression ℚ}

/-- The formal polynomial of every slot. -/
noncomputable def formal : Expression ℚ → List (MvPolynomial VariableId ℚ)
  | const xs => xs.toList.map C
  | var vs => vs.toList.map fun v => X v.id
  | mono ms => ms.toList.map (·.formal)
  | poly ps => ps.toList.map (·.formal)

@[simp] theorem length_formal (e : Expression ℚ) : e.formal.length = e.length := by
  cases e <;> simp [formal, length, Slots.length]

/-- The formal polynomials do not depend on the family in which an expression is read. -/
theorem formal_polynomials (e : Expression ℚ) : e.polynomials.map (·.formal) = e.formal := by
  cases e <;> simp [polynomials, formal, Function.comp_def]

/-- The values of the formal polynomials are the meaning. -/
@[simp] theorem map_eval_formal (e : Expression ℚ) : e.formal.map (eval ρ) = e.denote ρ := by
  rw [← formal_polynomials, ← denote_polynomials, List.map_map]
  exact List.map_congr_left fun p _ => p.eval_formal

/-- Formal polynomials with the same values are the same. -/
theorem formal_ext {ps qs : List (MvPolynomial VariableId ℚ)}
    (h : ∀ ρ : Valuation, ps.map (eval ρ) = qs.map (eval ρ)) : ps = qs := by
  have hlength : ps.length = qs.length := by simpa using congrArg List.length (h fun _ => 0)
  refine List.ext_getElem hlength fun i hi hi' => MvPolynomial.funext fun ρ => ?_
  have hvalue := List.getElem_of_eq (h ρ) (i := i) (by simpa using hi)
  rwa [List.getElem_map, List.getElem_map] at hvalue

/-- What is done to the values, slot by slot, is done to the formal polynomials. -/
theorem formal_of_denote {f : MvPolynomial VariableId ℚ → MvPolynomial VariableId ℚ →
    MvPolynomial VariableId ℚ} {g : ℚ → ℚ → ℚ}
    (hfg : ∀ (ρ : Valuation) p q, eval ρ (f p q) = g (eval ρ p) (eval ρ q))
    (h : ∀ ρ, broadcast? g (a.denote ρ) (b.denote ρ) = some (e.denote ρ)) :
    broadcast? f a.formal b.formal = some e.formal := by
  have hvalues (ρ : Valuation) :
      (broadcast? f a.formal b.formal).map (List.map (eval ρ)) = some (e.denote ρ) := by
    rw [← broadcast?_map fun p q => (hfg ρ p q).symm, map_eval_formal, map_eval_formal]
    exact h ρ
  obtain ⟨ps, hps, -⟩ := Option.map_eq_some_iff.mp (hvalues fun _ => 0)
  rw [hps, Option.some.injEq]
  refine formal_ext fun ρ => ?_
  have hρ := hvalues ρ
  rwa [hps, Option.map_some, Option.some.injEq, ← map_eval_formal] at hρ

/-- **The sum has in every slot the sum of the formal polynomials.** -/
theorem formal_add (h : a.add b = .ok e) :
    broadcast? (· + ·) a.formal b.formal = some e.formal :=
  formal_of_denote (fun ρ p q => map_add (eval ρ) p q) fun _ => denote_add h

/-- **The product has in every slot the product of the formal polynomials.** -/
theorem formal_mul (h : a.mul b = .ok e) :
    broadcast? (· * ·) a.formal b.formal = some e.formal :=
  formal_of_denote (fun ρ p q => map_mul (eval ρ) p q) fun _ => denote_mul h

/-! ### Scalars -/

/-- A scalar has one formal polynomial. -/
theorem exists_formal_eq_singleton (h : e.isVector = false) : ∃ p, e.formal = [p] := by
  rw [← List.length_eq_one_iff, length_formal]
  exact length_of_scalar h

variable {p q : MvPolynomial VariableId ℚ}

theorem formal_add_singleton (h : a.add b = .ok e) (hp : a.formal = [p]) (hq : b.formal = [q]) :
    e.formal = [p + q] := by
  have hslots := formal_add h
  rw [hp, hq] at hslots
  exact (Option.some.inj hslots).symm

theorem formal_mul_singleton (h : a.mul b = .ok e) (hp : a.formal = [p]) (hq : b.formal = [q]) :
    e.formal = [p * q] := by
  have hslots := formal_mul h
  rw [hp, hq] at hslots
  exact (Option.some.inj hslots).symm

end Expression

end AlgebraicModel
