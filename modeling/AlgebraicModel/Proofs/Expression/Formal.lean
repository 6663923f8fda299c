import Mathlib
import AlgebraicModel.Proofs.Expression.Denotation
import AlgebraicModel.Proofs.Expression.NormalForm

/-!
# Polynomials without an order

A polynomial is a list of terms, and a term a list of factors. Without the orders of these lists it
is a formal polynomial, which is determined by its values. In normal form nothing else is lost: the
exponents of a product tell its powers up to their order, and the coefficient that the formal
polynomial has at the exponents of a term is that of the term.

## Main definitions

* `Factor.exponents`: the exponent of every variable in a product of powers
* `Monomial.formal`, `Polynomial.formal`: monomials and polynomials without an order

## Main results

* `Polynomial.eval_formal`: the value of the formal polynomial is the meaning
* `Factor.exponents_eq_iff`: normal products with equal exponents have the same powers
* `Polynomial.coeff_formal_of_mem`: the coefficients of a normal form
-/

namespace AlgebraicModel

variable {ρ : Valuation}

/-! ## Exponents -/

namespace Factor

/-- The exponent of every variable. -/
noncomputable def exponents (fs : List Factor) : VariableId →₀ ℕ :=
  (fs.map fun f => Finsupp.single f.base.id f.exponent).sum

@[simp] theorem exponents_nil : exponents [] = 0 := rfl

@[simp] theorem exponents_cons (f : Factor) (fs : List Factor) :
    exponents (f :: fs) = Finsupp.single f.base.id f.exponent + exponents fs := by
  simp [exponents]

/-- The value of a product is the product of the powers that its exponents give. -/
theorem prod_exponents (fs : List Factor) :
    ((exponents fs).prod fun id n => ρ id ^ n) = denote fs ρ := by
  induction fs with
  | nil => simp [denote]
  | cons f fs ih =>
    have hsingle : ((Finsupp.single f.base.id f.exponent).prod fun id n => ρ id ^ n) =
        ρ f.base.id ^ f.exponent := Finsupp.prod_single_index (pow_zero _)
    rw [exponents_cons, Finsupp.prod_add_index' (fun _ => pow_zero _) fun _ _ _ => pow_add _ _ _,
      hsingle, ih]
    simp [denote]

/-- The total degree is the sum of the exponents. -/
theorem degree_exponents (fs : List Factor) : (exponents fs).degree = degree fs := by
  induction fs with
  | nil => simp
  | cons f fs ih => rw [exponents_cons, map_add, Finsupp.degree_single, ih, degree_cons]

theorem exponents_apply_eq_zero {fs : List Factor} {id : VariableId}
    (h : id ∉ fs.map (·.base.id)) : exponents fs id = 0 := by
  induction fs with
  | nil => rfl
  | cons f fs ih =>
    rw [List.map_cons, List.mem_cons, not_or] at h
    rw [exponents_cons, Finsupp.add_apply, ih h.2, Finsupp.single_eq_of_ne h.1]

/-- With every variable once, a factor has the exponent of its variable. -/
theorem exponents_apply_of_mem {fs : List Factor} (hdistinct : (fs.map (·.base.id)).Nodup)
    {f : Factor} (hf : f ∈ fs) : exponents fs f.base.id = f.exponent := by
  induction fs with
  | nil => simp at hf
  | cons g fs ih =>
    rw [List.map_cons, List.nodup_cons] at hdistinct
    obtain ⟨hnew, hrest⟩ := hdistinct
    rw [exponents_cons, Finsupp.add_apply]
    rcases List.mem_cons.mp hf with rfl | hf
    · rw [Finsupp.single_eq_same, exponents_apply_eq_zero hnew, add_zero]
    · have hne : f.base.id ≠ g.base.id := fun h => hnew (h ▸ List.mem_map_of_mem hf)
      rw [Finsupp.single_eq_of_ne hne, zero_add, ih hrest hf]

/-- The powers of a normal product are the exponents that are not zero. -/
theorem mem_powers_iff {fs : List Factor} (h : IsNormal fs) {id : VariableId} {n : ℕ} :
    (id, n) ∈ fs.map (fun f => (f.base.id, f.exponent)) ↔ n ≠ 0 ∧ exponents fs id = n := by
  constructor
  · intro hmem
    obtain ⟨f, hf, heq⟩ := List.mem_map.mp hmem
    obtain ⟨rfl, rfl⟩ := Prod.mk.inj heq
    exact ⟨h.positive f hf, exponents_apply_of_mem h.distinct hf⟩
  · rintro ⟨hn, rfl⟩
    have hid : id ∈ fs.map (·.base.id) := by
      by_contra hid
      exact hn (exponents_apply_eq_zero hid)
    obtain ⟨f, hf, rfl⟩ := List.mem_map.mp hid
    rw [exponents_apply_of_mem h.distinct hf]
    exact List.mem_map_of_mem hf

/-- **Exponents tell normal products apart**, up to the order of their factors. -/
theorem exponents_eq_iff {fs gs : List Factor} (hfs : IsNormal fs) (hgs : IsNormal gs) :
    exponents fs = exponents gs ↔
      (fs.map fun f => (f.base.id, f.exponent)).Perm (gs.map fun f => (f.base.id, f.exponent)) := by
  have hnodup {fs : List Factor} (h : IsNormal fs) :
      (fs.map fun f => (f.base.id, f.exponent)).Nodup := by
    refine List.Nodup.of_map Prod.fst ?_
    rw [List.map_map]
    exact h.distinct
  rw [List.perm_ext_iff_of_nodup (hnodup hfs) (hnodup hgs)]
  constructor
  · rintro h ⟨id, n⟩
    rw [mem_powers_iff hfs, mem_powers_iff hgs, h]
  · intro h
    ext id
    by_cases hzero : exponents fs id = 0
    · by_contra hne
      have hmem := (mem_powers_iff hgs).mpr ⟨fun h0 => hne (hzero.trans h0.symm), rfl⟩
      obtain ⟨-, hid⟩ := (mem_powers_iff hfs).mp ((h _).mpr hmem)
      exact hne hid
    · have hmem := (mem_powers_iff hfs).mpr ⟨hzero, rfl⟩
      exact ((mem_powers_iff hgs).mp ((h _).mp hmem)).2.symm

end Factor

/-! ## Formal polynomials -/

namespace Monomial

/-- The monomial without the order of its factors. -/
noncomputable def formal (m : Monomial ℚ) : MvPolynomial VariableId ℚ :=
  MvPolynomial.monomial (Factor.exponents m.factors) m.coefficient

@[simp] theorem eval_formal (m : Monomial ℚ) : MvPolynomial.eval ρ m.formal = m.denote ρ := by
  rw [formal, MvPolynomial.eval_monomial, Factor.prod_exponents, denote]

/-- Like monomials in normal form have the same exponents. -/
theorem isLike_iff_exponents {m n : Monomial ℚ} (hm : m.IsNormal) (hn : n.IsNormal) :
    m.isLike n = true ↔ Factor.exponents m.factors = Factor.exponents n.factors := by
  rw [isLike_iff, Factor.exponents_eq_iff hm.factors hn.factors, powers, powers]

end Monomial

namespace Polynomial

/-- The polynomial without the orders of its terms and their factors. -/
noncomputable def formal (p : Polynomial ℚ) : MvPolynomial VariableId ℚ :=
  (p.terms.map (·.formal)).sum

/-- The value of the formal polynomial is the meaning. -/
@[simp] theorem eval_formal (p : Polynomial ℚ) : MvPolynomial.eval ρ p.formal = p.denote ρ := by
  rw [formal, map_list_sum, List.map_map, denote]
  congr 1
  exact List.map_congr_left fun t _ => t.eval_formal

/-- Polynomials with the same meaning are the same formal polynomial. -/
theorem formal_eq_iff {p q : Polynomial ℚ} :
    p.formal = q.formal ↔ ∀ ρ, p.denote ρ = q.denote ρ := by
  simp [MvPolynomial.funext_iff]

/-- A coefficient of the formal polynomial is the sum of those of the terms with its exponents. -/
theorem coeff_formal (p : Polynomial ℚ) (d : VariableId →₀ ℕ) :
    p.formal.coeff d =
      (p.terms.map fun t => if Factor.exponents t.factors = d then t.coefficient else 0).sum := by
  rw [formal]
  induction p.terms with
  | nil => simp
  | cons t ts ih =>
    rw [List.map_cons, List.sum_cons, MvPolynomial.coeff_add, ih, Monomial.formal,
      MvPolynomial.coeff_monomial]
    simp

/-- Terms with other exponents do not contribute to a coefficient. -/
theorem sum_coefficients_eq_zero {ts : List (Monomial ℚ)} {d : VariableId →₀ ℕ}
    (h : ∀ t ∈ ts, Factor.exponents t.factors ≠ d) :
    (ts.map fun t => if Factor.exponents t.factors = d then t.coefficient else 0).sum = 0 := by
  refine List.sum_eq_zero fun x hx => ?_
  obtain ⟨t, ht, rfl⟩ := List.mem_map.mp hx
  exact if_neg (h t ht)

/-- The exponents of a coefficient that is not zero are those of a term. -/
theorem exists_of_coeff_formal_ne_zero {p : Polynomial ℚ} {d : VariableId →₀ ℕ}
    (h : p.formal.coeff d ≠ 0) : ∃ t ∈ p.terms, Factor.exponents t.factors = d := by
  by_contra hnone
  push Not at hnone
  rw [coeff_formal, sum_coefficients_eq_zero hnone] at h
  exact h rfl

/-- **The coefficients of a normal form**: at the exponents of a term, the coefficient of that
term. -/
theorem coeff_formal_of_mem {p : Polynomial ℚ} (hp : p.IsNormal) {t : Monomial ℚ}
    (ht : t ∈ p.terms) : p.formal.coeff (Factor.exponents t.factors) = t.coefficient := by
  obtain ⟨us, vs, hsplit⟩ := List.append_of_mem ht
  have hterms := hp.terms
  have hunlike := hp.unlike
  rw [hsplit] at hterms hunlike
  rw [List.pairwise_append, List.pairwise_cons] at hunlike
  obtain ⟨-, ⟨hafter, -⟩, hbefore⟩ := hunlike
  have htnormal := hterms t (by simp)
  -- No other term is like this one, so none of them has its exponents.
  have hus : ∀ s ∈ us, Factor.exponents s.factors ≠ Factor.exponents t.factors := by
    intro s hs heq
    have hsnormal := hterms s (by simp [hs])
    exact hbefore s hs t (by simp) ((Monomial.isLike_iff_exponents hsnormal htnormal).mpr heq)
  have hvs : ∀ s ∈ vs, Factor.exponents s.factors ≠ Factor.exponents t.factors := by
    intro s hs heq
    have hsnormal := hterms s (by simp [hs])
    exact hafter s hs ((Monomial.isLike_iff_exponents htnormal hsnormal).mpr heq.symm)
  rw [coeff_formal, hsplit, List.map_append, List.map_cons, List.sum_append, List.sum_cons,
    sum_coefficients_eq_zero hus, sum_coefficients_eq_zero hvs, if_pos rfl, zero_add, add_zero]

/-- A term of a normal form has a coefficient that is not zero. -/
theorem coefficient_ne_zero {p : Polynomial ℚ} (hp : p.IsNormal) {t : Monomial ℚ}
    (ht : t ∈ p.terms) : t.coefficient ≠ 0 := by
  simpa using hp.nonzero t ht

end Polynomial

end AlgebraicModel
