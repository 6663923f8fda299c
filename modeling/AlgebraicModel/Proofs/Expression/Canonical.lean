import Mathlib
import AlgebraicModel.Proofs.Expression.Formal
import AlgebraicModel.Proofs.Expression.Sum
import AlgebraicModel.Proofs.Variable.Distinct

/-!
# The normal form is canonical

Two polynomials in normal form have the same values exactly if they have the same terms, up to the
order of the terms and the order of the factors in each of them. So nothing is left of what
cancels: a difference of equal expressions has no terms.

## Main definitions

* `Monomial.content`, `Polynomial.SameTerms`: terms without an order of the factors, and polynomials
  with the same terms

## Main results

* `Polynomial.IsNormal.sameTerms_iff`: normal forms with the same meaning have the same terms
* `Polynomial.canonical`: the same for what can be constructed and evaluated
-/

namespace AlgebraicModel

variable {α : Type} {ρ : Valuation}

/-! ## Terms without an order -/

/-- The coefficient and the powers, without an order of the factors. -/
def Monomial.content (m : Monomial α) : α × Multiset (VariableId × ℕ) :=
  (m.coefficient, m.powers)

/-- The value of a monomial does not depend on the order of its factors. -/
theorem Monomial.denote_eq_content (m : Monomial ℚ) :
    m.denote ρ = m.content.1 * (m.content.2.map fun p => ρ p.1 ^ p.2).prod := by
  rw [denote, denote_factors, content, Multiset.map_coe, Multiset.prod_coe]

namespace Polynomial

/-- The same terms, up to their order and the order of the factors in each of them. -/
def SameTerms (p q : Polynomial α) : Prop :=
  (p.terms.map (·.content)).Perm (q.terms.map (·.content))

variable {p q : Polynomial ℚ}

theorem SameTerms.denote_eq (h : p.SameTerms q) : p.denote ρ = q.denote ρ := by
  have hsum (p : Polynomial ℚ) : p.denote ρ =
      ((p.terms.map (·.content)).map fun c =>
        c.1 * (c.2.map fun p => ρ p.1 ^ p.2).prod).sum := by
    rw [denote, List.map_map]
    congr 1
    exact List.map_congr_left fun t _ => t.denote_eq_content
  rw [hsum, hsum]
  exact (h.map _).sum_eq

/-- No two terms of a normal form have the same content. -/
theorem IsNormal.nodup_content (hp : p.IsNormal) : (p.terms.map (·.content)).Nodup := by
  rw [List.nodup_iff_pairwise_ne, List.pairwise_map]
  refine hp.unlike.imp fun {s t} hunlike heq => hunlike ?_
  exact Monomial.isLike_iff.mpr (Multiset.coe_eq_coe.mp (Prod.mk.inj heq).2)

/-- A term of a normal form is a term of every normal form with the same meaning. -/
theorem IsNormal.content_mem (hp : p.IsNormal) (hq : q.IsNormal) (h : p.formal = q.formal)
    {t : Monomial ℚ} (ht : t ∈ p.terms) : t.content ∈ q.terms.map (·.content) := by
  -- The formal polynomials have the coefficient of the term at its exponents, so `q` has a term
  -- with these exponents, and that term has the same coefficient.
  have hcoeff : q.formal.coeff (Factor.exponents t.factors) = t.coefficient := by
    rw [← h, coeff_formal_of_mem hp ht]
  have hne : q.formal.coeff (Factor.exponents t.factors) ≠ 0 := by
    rw [hcoeff]
    exact coefficient_ne_zero hp ht
  obtain ⟨u, hu, hexponents⟩ := exists_of_coeff_formal_ne_zero hne
  have hcoefficient : u.coefficient = t.coefficient := by
    rw [← coeff_formal_of_mem hq hu, hexponents, hcoeff]
  have hlike : u.isLike t :=
    (Monomial.isLike_iff_exponents (hq.terms u hu) (hp.terms t ht)).mpr hexponents
  have hcontent : u.content = t.content :=
    Prod.ext hcoefficient (Multiset.coe_eq_coe.mpr (Monomial.isLike_iff.mp hlike))
  exact hcontent ▸ List.mem_map_of_mem hu

/-- **Normal forms with the same meaning have the same terms.** -/
theorem IsNormal.sameTerms_iff (hp : p.IsNormal) (hq : q.IsNormal) :
    p.SameTerms q ↔ ∀ ρ, p.denote ρ = q.denote ρ := by
  constructor
  · intro h ρ
    exact h.denote_eq
  · intro h
    have hformal := formal_eq_iff.mpr h
    rw [SameTerms, List.perm_ext_iff_of_nodup hp.nodup_content hq.nodup_content]
    intro c
    constructor
    · intro hc
      obtain ⟨t, ht, rfl⟩ := List.mem_map.mp hc
      exact hp.content_mem hq hformal ht
    · intro hc
      obtain ⟨t, ht, rfl⟩ := List.mem_map.mp hc
      exact hq.content_mem hp hformal.symm ht

/-- A normal form that is zero everywhere has no terms. -/
theorem IsNormal.terms_eq_nil (hp : p.IsNormal) (h : ∀ ρ, p.denote ρ = 0) : p.terms = [] := by
  have hempty : (empty : Polynomial ℚ).IsNormal := ⟨by simp [empty], by simp [empty], by simp [empty]⟩
  have hsame := (hp.sameTerms_iff hempty).mpr fun ρ => by rw [h ρ, denote, empty]; rfl
  simpa [SameTerms, empty] using hsame

/-- Polynomials have the same values under the assignments that cover their variables exactly if
they have the same meaning. -/
theorem evaluate_eq_iff_denote_eq :
    (∀ σ : Assignment ℚ, (∀ v ∈ p.vars ++ q.vars, (σ v.id).isSome) →
      ∃ x, p.evaluate σ = .ok x ∧ q.evaluate σ = .ok x) ↔ ∀ ρ, p.denote ρ = q.denote ρ := by
  constructor
  · intro h ρ
    let σ : Assignment ℚ := fun id => some (ρ id)
    have hgives (vs : List Variable) : σ.Gives ρ vs := fun v _ => rfl
    obtain ⟨x, hp, hq⟩ := h σ fun v _ => rfl
    rw [evaluate_eq_denote (hgives _)] at hp hq
    exact (Except.ok.inj hp).trans (Except.ok.inj hq).symm
  · intro h σ hcovers
    have hbases : σ.Covers (p.terms.flatMap (·.bases) ++ q.terms.flatMap (·.bases)) := by
      obtain ⟨hp, hq⟩ := Assignment.covers_append_iff.mp hcovers
      exact Assignment.covers_append_iff.mpr
        ⟨Assignment.covers_distinct_iff.mp hp, Assignment.covers_distinct_iff.mp hq⟩
    obtain ⟨ρ, hρ⟩ := hbases.exists_gives
    obtain ⟨hp, hq⟩ := List.forall_mem_append.mp hρ
    refine ⟨p.denote ρ, evaluate_eq_denote hp, ?_⟩
    rw [h ρ]
    exact evaluate_eq_denote hq

end Polynomial

/-! ## Cancellation -/

namespace Expression

variable {e d : Expression ℚ}

/-- A valid expression can be subtracted from itself. -/
theorem exists_minus_self (hcheck : e.check = .ok ()) :
    ∃ d, (e.minus (.expression e)).result = .ok d ∧ e.add e.negate = .ok d := by
  obtain ⟨d, hd⟩ := exists_add (a := e) (b := e.negate) (.inr (.inr (length_negate e).symm))
  refine ⟨d, minus_eq_ok_iff.mpr ⟨e, ?_, ?_, hd⟩, hd⟩
  · exact checkedOperand_eq_ok_iff.mpr ⟨hcheck, rfl, hcheck⟩
  · simp [checkSum]

/-- Every slot of the difference of equal expressions is zero. -/
theorem denote_add_negate (h : e.add e.negate = .ok d) :
    d.denote ρ = List.replicate e.length 0 := by
  have hsum := denote_add (ρ := ρ) h
  rw [denote_negate, broadcast?_of_length_eq (by simp), Option.some.injEq] at hsum
  rw [← hsum, List.zipWith_map_right, List.zipWith_self]
  simp [List.map_const']

/-- **Nothing is left of what cancels.** -/
theorem terms_eq_nil_of_add_negate (he : e.IsNormal) (h : e.add e.negate = .ok d) :
    ∀ p ∈ d.polynomials, p.terms = [] := by
  intro p hp
  have hd : d.IsNormal := isNormal_add (by decide) he (isNormal_negate (by decide) he) h
  refine (isNormal_polynomials (by decide) hd p hp).terms_eq_nil fun ρ => ?_
  have hmem : p.denote ρ ∈ d.denote ρ := denote_polynomials d ▸ List.mem_map_of_mem hp
  rw [denote_add_negate h] at hmem
  exact List.eq_of_mem_replicate hmem

end Expression

/-- **The normal form is canonical.** Constructed polynomials evaluate to the same value under every
assignment that covers the variables of both exactly if they have the same terms, up to the order
of the terms and of the factors in each of them. A valid expression less itself has no terms in
any slot. -/
theorem Polynomial.canonical {p q : Polynomial ℚ}
    (hp : (Expression.poly (.scalar p)).Constructed)
    (hq : (Expression.poly (.scalar q)).Constructed) :
    ((∀ σ : Assignment ℚ, (∀ v ∈ p.vars ++ q.vars, (σ v.id).isSome) →
      ∃ x, p.evaluate σ = .ok x ∧ q.evaluate σ = .ok x) ↔ p.SameTerms q) ∧
    ∀ e : Expression ℚ, e.Constructed → e.check = .ok () →
      ∃ d, (e.minus (.expression e)).result = .ok d ∧ d.polynomials.length = e.length ∧
        ∀ r ∈ d.polynomials, r.terms = [] := by
  have hpnormal := Expression.isNormal_poly_scalar.mp (hp.isNormal (by decide))
  have hqnormal := Expression.isNormal_poly_scalar.mp (hq.isNormal (by decide))
  refine ⟨?_, fun e he hcheck => ?_⟩
  · rw [evaluate_eq_iff_denote_eq, hpnormal.sameTerms_iff hqnormal]
  · obtain ⟨d, hresult, hd⟩ := Expression.exists_minus_self hcheck
    have hlength : d.length = e.length := by
      simpa using congrArg List.length (Expression.denote_add_negate (ρ := fun _ => 0) hd)
    refine ⟨d, hresult, ?_, ?_⟩
    · rw [Expression.length_polynomials, hlength]
    · exact Expression.terms_eq_nil_of_add_negate (he.isNormal (by decide)) hd

/-- The sums `2 * x₁ * x₂ + 3` and `3 + 2 * x₂ * x₁`. -/
theorem Polynomial.canonical_reordered :
    let x₁ : Factor := ⟨⟨⟨1⟩, {}, .integer⟩, 1⟩
    let x₂ : Factor := ⟨⟨⟨2⟩, {}, .integer⟩, 1⟩
    let p : Polynomial ℚ := .ofTerms [⟨2, [x₁, x₂]⟩, .const 3]
    let q : Polynomial ℚ := .ofTerms [.const 3, ⟨2, [x₂, x₁]⟩]
    let e : Expression ℚ := .poly (.scalar p)
    e.Constructed ∧ (Expression.poly (.scalar q)).Constructed ∧
      p.terms.map (·.degree) = [2, 0] ∧ q.terms.map (·.degree) = [0, 2] ∧
      (∀ σ : Assignment ℚ, (∀ v ∈ p.vars ++ q.vars, (σ v.id).isSome) →
        ∃ x, p.evaluate σ = .ok x ∧ q.evaluate σ = .ok x) ∧
      ∃ d, (e.minus (.expression e)).result = .ok d ∧ d.polynomials.length = 1 ∧
        ∀ r ∈ d.polynomials, r.terms = [] := by
  intro x₁ x₂ p q e
  have hp : e.Constructed := .polynomial fun t ht => by
    rcases List.mem_pair.mp ht with rfl | rfl
    · exact .monomial (show Monomial.ofFactors? 2 [x₁, x₂] = some _ from rfl)
    · exact .constMonomial 3
  have hq : (Expression.poly (.scalar q)).Constructed := .polynomial fun t ht => by
    rcases List.mem_pair.mp ht with rfl | rfl
    · exact .constMonomial 3
    · exact .monomial (show Monomial.ofFactors? 2 [x₂, x₁] = some _ from rfl)
  have hsame : p.SameTerms q := by
    unfold SameTerms
    decide +kernel
  have hcheck : e.check = .ok () := eq_ok_of_isOk (by decide +kernel)
  obtain ⟨hvalues, hdifference⟩ := canonical hp hq
  exact ⟨hp, hq, by decide +kernel, by decide +kernel, hvalues.mpr hsame, hdifference e hp hcheck⟩

end AlgebraicModel
