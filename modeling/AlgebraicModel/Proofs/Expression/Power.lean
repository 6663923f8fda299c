import Mathlib
import AlgebraicModel.Proofs.Expression.Degree
import AlgebraicModel.Proofs.Expression.FormalArithmetic

/-!
# Powers

A power multiplies again and again, and checks every product. In normal form the degree is that of
the formal polynomial, and the formal polynomials over the rationals have no zero divisors: the
terms of greatest degree of two of them never cancel in their product. The degree of every partial
power is therefore exactly the multiple that it should be, and the products overflow exactly where
the degree of the whole power does.

## Main definitions

* `Expression.IsPower e k r`: `r` is the `k`-th power of `e`

## Main results

* `Polynomial.totalDegree_formal`: the degree of a normal form
* `Expression.IsPower.exists_mul`, `mul_eq_error_iff`: one more multiplication
* `Expression.IsPower.exists_mulRepeated`, `mulRepeated_eq_error_iff`: any number of them
* `Expression.power_exact`: when there is a power, its degree and its values
-/

namespace AlgebraicModel

open MvPolynomial (C eval)

/-! ## Degrees of formal polynomials -/

theorem totalDegree_pow_eq {σ : Type} (p : MvPolynomial σ ℚ) (n : ℕ) :
    (p ^ n).totalDegree = p.totalDegree * n := by
  rcases eq_or_ne p 0 with rfl | hp
  · rcases eq_or_ne n 0 with rfl | hn
    · simp
    · simp [hn]
  · induction n with
    | zero => simp
    | succ n ih =>
      rw [pow_succ, MvPolynomial.totalDegree_mul_of_isDomain (pow_ne_zero n hp) hp, ih, Nat.mul_succ]

/-- The degree of a normal form is that of its formal polynomial. -/
theorem Polynomial.totalDegree_formal {p : Polynomial ℚ} (hp : p.IsNormal) :
    p.formal.totalDegree = p.degree := by
  refine le_antisymm ?_ ?_
  · refine Finset.sup_le fun d hd => ?_
    obtain ⟨t, ht, rfl⟩ := exists_of_coeff_formal_ne_zero (MvPolynomial.mem_support_iff.mp hd)
    exact (Factor.degree_exponents t.factors).trans_le (degree_le_of_mem ht)
  · rcases Nat.eq_zero_or_pos p.degree with hzero | hpos
    · exact hzero ▸ Nat.zero_le _
    · obtain ⟨t, ht, hdegree⟩ := exists_degree_eq hpos
      have hsupport : Factor.exponents t.factors ∈ p.formal.support := by
        rw [MvPolynomial.mem_support_iff, coeff_formal_of_mem hp ht]
        exact coefficient_ne_zero hp ht
      rw [← hdegree, Monomial.degree, ← Factor.degree_exponents]
      exact MvPolynomial.le_totalDegree hsupport

namespace Expression

variable {e r : Expression ℚ} {k : ℕ}

theorem totalDegree_of_formal_eq {p : MvPolynomial VariableId ℚ} (he : e.IsNormal)
    (hscalar : e.isVector = false) (hp : e.formal = [p]) : p.totalDegree = e.degree := by
  have hdegrees : e.formal.map (·.totalDegree) = e.degrees := by
    rw [← formal_polynomials, ← degrees_polynomials (by decide) he, List.map_map]
    exact List.map_congr_left fun q hq =>
      Polynomial.totalDegree_formal (isNormal_polynomials (by decide) he q hq)
  rw [hp, degrees_of_scalar hscalar] at hdegrees
  exact List.singleton_inj.mp hdegrees

/-! ## Repeated multiplication -/

/-- `r` is the `k`-th power of the scalar `e`, with no other variables. -/
structure IsPower (e : Expression ℚ) (k : ℕ) (r : Expression ℚ) : Prop where
  isVector : r.isVector = false
  isNormal : r.IsNormal
  formal : r.formal = e.formal.map (· ^ k)
  bases : r.bases ⊆ e.bases

namespace IsPower

theorem start (hscalar : e.isVector = false) : IsPower e 0 (const (.scalar 1)) := by
  obtain ⟨p, hp⟩ := exists_formal_eq_singleton hscalar
  refine ⟨rfl, trivial, ?_, List.nil_subset _⟩
  rw [hp]
  simp [Expression.formal]

theorem formal_singleton (h : IsPower e k r) {p : MvPolynomial VariableId ℚ}
    (hp : e.formal = [p]) : r.formal = [p ^ k] := by
  rw [h.formal, hp, List.map_singleton]

/-- The values of a power. -/
theorem evaluate (h : IsPower e k r) (hscalar : e.isVector = false) {σ : Assignment ℚ}
    (hσ : σ.Covers e.vars) :
    ∃ x, e.evaluate σ = .ok [x] ∧ r.evaluate σ = .ok [x ^ k] := by
  obtain ⟨ρ, hρ⟩ := (Assignment.covers_distinct_iff.mp hσ).exists_gives
  obtain ⟨p, hp⟩ := exists_formal_eq_singleton hscalar
  refine ⟨eval ρ p, ?_, ?_⟩
  · rw [evaluate_eq_denote hρ, ← map_eval_formal, hp, List.map_singleton]
  · rw [evaluate_eq_denote fun v hv => hρ v (h.bases hv), ← map_eval_formal,
      h.formal_singleton hp, List.map_singleton, map_pow]

section Degree

variable (h : IsPower e k r) (he : e.IsNormal) (hscalar : e.isVector = false)
include h he hscalar

/-- No term of greatest degree is lost in a partial power. -/
theorem degree : r.degree = e.degree * k := by
  obtain ⟨p, hp⟩ := exists_formal_eq_singleton hscalar
  rw [← totalDegree_of_formal_eq h.isNormal h.isVector (h.formal_singleton hp), totalDegree_pow_eq,
    totalDegree_of_formal_eq he hscalar hp]

/-- One more factor is too much where the degree of the next power is. -/
theorem mul_eq_error_iff {cause : Error ℚ} :
    r.mul e = .error cause ↔ maxDegree < e.degree * (k + 1) ∧ cause = .degreeOverflow := by
  rw [Expression.mul_eq_error_iff (by decide) h.isNormal he (.inl (length_of_scalar h.isVector)),
    overflows_of_scalar h.isVector hscalar, h.degree he hscalar, Nat.mul_succ]

/-- **Step**: a power times one more factor is the next power, if its degree is within bounds. -/
theorem exists_mul (hdegree : e.degree * (k + 1) ≤ maxDegree) :
    ∃ s, r.mul e = .ok s ∧ IsPower e (k + 1) s := by
  cases hs : r.mul e with
  | error cause => exact absurd ((h.mul_eq_error_iff he hscalar).mp hs).1 (not_lt.mpr hdegree)
  | ok s =>
    obtain ⟨p, hp⟩ := exists_formal_eq_singleton hscalar
    refine ⟨s, rfl, ?_, isNormal_mul hs, ?_, fun v hv => ?_⟩
    · rw [isVector_mul hs, h.isVector, hscalar, Bool.or_false]
    · rw [formal_mul_singleton hs (h.formal_singleton hp) hp, hp, List.map_singleton, pow_succ]
    · rcases List.mem_append.mp (bases_mul hs hv) with hv | hv
      · exact h.bases hv
      · exact hv

/-- **Run**: `n` more factors give the power that follows after `n` steps, if its degree is within
bounds. -/
theorem exists_mulRepeated {n : ℕ} (hdegree : e.degree * (k + n) ≤ maxDegree) :
    ∃ s, mulRepeated e r n = .ok s ∧ IsPower e (k + n) s := by
  induction n generalizing k r with
  | zero => exact ⟨r, rfl, h⟩
  | succ n ih =>
    have hnext : e.degree * (k + 1) ≤ maxDegree :=
      (Nat.mul_le_mul_left _ (by omega)).trans hdegree
    obtain ⟨s, hs, hpower⟩ := h.exists_mul he hscalar hnext
    rw [← Nat.add_assoc, Nat.add_right_comm] at hdegree ⊢
    rw [mulRepeated, hs, ok_bind]
    exact ih hpower hdegree

/-- Of `n` more factors one is too much, if the degree of the power after `n` steps is. -/
theorem mulRepeated_eq_error {n : ℕ} (hdegree : maxDegree < e.degree * (k + n)) :
    mulRepeated e r n = .error .degreeOverflow := by
  induction n generalizing k r with
  | zero =>
    have hbound := degree_le_maxDegree (by decide) h.isNormal
    rw [h.degree he hscalar] at hbound
    exact absurd hdegree (not_lt.mpr hbound)
  | succ n ih =>
    rw [← Nat.add_assoc, Nat.add_right_comm] at hdegree
    by_cases hnext : e.degree * (k + 1) ≤ maxDegree
    · obtain ⟨s, hs, hpower⟩ := h.exists_mul he hscalar hnext
      rw [mulRepeated, hs, ok_bind]
      exact ih hpower hdegree
    · rw [mulRepeated, (h.mul_eq_error_iff he hscalar).mpr ⟨not_le.mp hnext, rfl⟩, error_bind]

theorem mulRepeated_eq_error_iff {n : ℕ} {cause : Error ℚ} :
    mulRepeated e r n = .error cause ↔
      maxDegree < e.degree * (k + n) ∧ cause = .degreeOverflow := by
  constructor
  · intro herror
    by_cases hdegree : e.degree * (k + n) ≤ maxDegree
    · obtain ⟨s, hs, -⟩ := h.exists_mulRepeated he hscalar hdegree
      rw [hs] at herror
      cases herror
    · have hoverflow := h.mulRepeated_eq_error he hscalar (not_le.mp hdegree)
      exact ⟨not_le.mp hdegree, Except.error.inj (herror.symm.trans hoverflow)⟩
  · rintro ⟨hdegree, rfl⟩
    exact h.mulRepeated_eq_error he hscalar hdegree

end Degree

end IsPower

/-- **A power is repeated multiplication with an exact bound.** A valid scalar has an `n`-th power
unless the degree of that power exceeds `maxDegree`, and then it fails with an overflow; the power
is a scalar with `n` times the degree and with the powers of the values. -/
theorem power_exact (he : e.Constructed) (hscalar : e.isVector = false) (hcheck : e.check = .ok ())
    (n : ℕ) :
    (∀ cause, e.power n = .error cause ↔
        maxDegree < e.degree * n ∧ cause = .degreeOverflow) ∧
      (e.degree * n ≤ maxDegree → ∃ r, e.power n = .ok r ∧ r.isVector = false ∧
        r.degree = n * e.degree ∧ ∀ σ : Assignment ℚ, σ.Covers e.vars →
          ∃ x, e.evaluate σ = .ok [x] ∧ r.evaluate σ = .ok [x ^ n]) := by
  have hnormal := he.isNormal (by decide)
  have hstart := IsPower.start hscalar
  have hpower : e.power n = mulRepeated e (const (.scalar 1)) n := by
    simp [power, hscalar, hcheck]
  rw [hpower]
  refine ⟨fun cause => ?_, fun hdegree => ?_⟩
  · rw [hstart.mulRepeated_eq_error_iff hnormal hscalar, Nat.zero_add]
  · obtain ⟨r, hr, hrpower⟩ :=
      hstart.exists_mulRepeated hnormal hscalar (n := n) (by rwa [Nat.zero_add])
    rw [Nat.zero_add] at hrpower
    exact ⟨r, hr, hrpower.isVector, (hrpower.degree hnormal hscalar).trans (Nat.mul_comm _ _),
      fun σ hσ => hrpower.evaluate hscalar hσ⟩

/-- The cube of `x - 1` where `x = 5`, and the square of `x ^ 2147483648`. -/
theorem power_exact_cube :
    let x : Variable := ⟨⟨1⟩, .nonNegative, .integer⟩
    let e : Expression ℚ := poly (.scalar (.ofTerms [.ofVariable x, .const (-1)]))
    let f : Expression ℚ := mono (.scalar ⟨1, [⟨x, 2 ^ 31⟩]⟩)
    let σ : Assignment ℚ := fun _ => some 5
    (e.Constructed ∧ e.isVector = false ∧ e.check = .ok () ∧ e.degree * 3 ≤ maxDegree ∧
      ∃ r, e.power 3 = .ok r ∧ r.isVector = false ∧ r.degree = 3 ∧ r.evaluate σ = .ok [64]) ∧
    f.Constructed ∧ f.isVector = false ∧ f.check = .ok () ∧ maxDegree < f.degree * 2 ∧
      f.power 2 = .error .degreeOverflow := by
  intro x e f σ
  have he : e.Constructed := .polynomial (by
    intro t ht
    rcases List.mem_pair.mp ht with rfl | rfl
    · exact .variableMonomial x
    · exact .constMonomial (-1))
  have hf : f.Constructed :=
    .monomial (show Monomial.ofFactors? 1 [⟨x, 2 ^ 31⟩] = some _ from rfl)
  have hecheck : e.check = .ok () := eq_ok_of_isOk (by decide +kernel)
  have hfcheck : f.check = .ok () := eq_ok_of_isOk (by decide +kernel)
  have hedegree : e.degree = 1 := by decide +kernel
  have hfdegree : f.degree = 2 ^ 31 := by decide +kernel
  have hebound : e.degree * 3 ≤ maxDegree := by
    rw [hedegree]
    decide
  have hfbound : maxDegree < f.degree * 2 := by
    rw [hfdegree]
    decide
  have hevalue : e.evaluate σ = .ok [4] := eq_ok_of_toOption (by decide +kernel)
  obtain ⟨-, hcube⟩ := power_exact he rfl hecheck 3
  obtain ⟨hoverflow, -⟩ := power_exact hf rfl hfcheck 2
  obtain ⟨r, hr, hrscalar, hrdegree, hvalues⟩ := hcube hebound
  obtain ⟨y, hy, hry⟩ := hvalues σ fun _ _ => rfl
  obtain rfl : 4 = y := by simpa using hevalue.symm.trans hy
  refine ⟨⟨he, rfl, hecheck, hebound, r, hr, hrscalar, ?_, ?_⟩, hf, rfl, hfcheck, hfbound,
    (hoverflow _).mpr ⟨hfbound, rfl⟩⟩
  · rw [hrdegree, hedegree]
  · rw [hry]
    norm_num

end Expression

end AlgebraicModel
