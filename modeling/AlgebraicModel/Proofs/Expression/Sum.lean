import Mathlib
import AlgebraicModel.Proofs.Expression.AffineForm
import AlgebraicModel.Proofs.Expression.Constructed

/-!
# What sums mean

Collecting like terms, scaling and adding polynomials do to the meaning what their names say, and a
sum of expressions has in every slot the sum of the slots of its operands, a slot of length one
being repeated. None of this needs a normal form.

## Main results

* `Polynomial.denote_ofTerms`: collecting like terms keeps the sum
* `Monomial.denote_scale`, `Polynomial.denote_add`, `Polynomial.denote_scale`
* `Expression.denote_negate`: the opposite of every slot
* `Expression.denote_add`, `exists_add`: the sum of two expressions, and when there is one
-/

namespace AlgebraicModel

variable {ρ : Valuation}

/-! ## Monomials -/

/-- A zero exponent does not show in the value. -/
theorem Factor.denote_filter (fs : List Factor) :
    denote (fs.filter (·.exponent ≠ 0)) ρ = denote fs ρ := by
  induction fs with
  | nil => rfl
  | cons f fs ih =>
    by_cases hf : f.exponent = 0
    · simp_all [denote]
    · simp_all [denote]

namespace Monomial

@[simp] theorem denote_normalize (c : ℚ) (fs : List Factor) :
    (normalize c fs).denote ρ = c * Factor.denote fs ρ := by
  unfold normalize
  split
  · next hc =>
    obtain rfl : c = 0 := by simpa using hc
    rw [denote_const, zero_mul]
  · rw [denote, Factor.denote_filter]

@[simp] theorem denote_scale (m : Monomial ℚ) (c : ℚ) :
    (m.scale c).denote ρ = c * m.denote ρ := by
  rw [scale, denote_normalize, denote]
  ring

/-- The product of the powers of a monomial. -/
theorem denote_factors {α : Type} (m : Monomial α) :
    Factor.denote m.factors ρ = (m.powers.map fun p => ρ p.1 ^ p.2).prod := by
  simp [Factor.denote, powers, Function.comp_def]

/-- Like monomials have the same product of powers. -/
theorem denote_factors_of_isLike {m n : Monomial ℚ} (h : m.isLike n) :
    Factor.denote m.factors ρ = Factor.denote n.factors ρ := by
  rw [denote_factors, denote_factors]
  exact ((isLike_iff.mp h).map _).prod_eq

/-- A monomial added to a sum adds its value. -/
theorem sum_denote_insert (m : Monomial ℚ) (ts : List (Monomial ℚ)) :
    ((m.insert ts).map (·.denote ρ)).sum = (ts.map (·.denote ρ)).sum + m.denote ρ := by
  rcases m.insert_cases ts with ⟨us, t, vs, rfl, hlike, heq⟩ | ⟨-, heq⟩
  · have hsum : (⟨t.coefficient + m.coefficient, t.factors⟩ : Monomial ℚ).denote ρ =
        t.denote ρ + m.denote ρ := by
      rw [denote, denote, denote, denote_factors_of_isLike hlike]
      exact add_mul _ _ _
    rw [heq]
    simp only [List.map_append, List.map_cons, List.sum_append, List.sum_cons, hsum]
    ring
  · simp [heq]

end Monomial

/-! ## Polynomials -/

namespace Polynomial

/-- Collecting like terms keeps the sum, also where groups of terms are dropped. -/
@[simp] theorem denote_ofTerms (ts : List (Monomial ℚ)) :
    (ofTerms ts).denote ρ = (ts.map (·.denote ρ)).sum := by
  have hdropped (us : List (Monomial ℚ)) :
      ((us.filter (·.coefficient != 0)).map (·.denote ρ)).sum = (us.map (·.denote ρ)).sum := by
    induction us with
    | nil => rfl
    | cons u us ih =>
      by_cases hu : u.coefficient = 0
      · simp_all [Monomial.denote]
      · simp_all
  -- The sum collected so far and the terms still to come hold what they held before a term.
  have hcollected : ∀ us : List (Monomial ℚ),
      ((ts.foldl (fun collected t => t.insert collected) us).map (·.denote ρ)).sum =
        (us.map (·.denote ρ)).sum + (ts.map (·.denote ρ)).sum := by
    induction ts with
    | nil => simp
    | cons t ts ih =>
      intro us
      rw [List.foldl_cons, ih, Monomial.sum_denote_insert, List.map_cons, List.sum_cons, add_assoc]
  rw [denote, ofTerms, hdropped, hcollected, List.map_nil, List.sum_nil, zero_add]

@[simp] theorem denote_add (p q : Polynomial ℚ) :
    (p.add q).denote ρ = p.denote ρ + q.denote ρ := by
  rw [add, denote_ofTerms, List.map_append, List.sum_append, denote, denote]

@[simp] theorem denote_scale (p : Polynomial ℚ) (c : ℚ) :
    (p.scale c).denote ρ = c * p.denote ρ := by
  rw [scale, denote_ofTerms, List.map_map, denote, ← List.sum_map_mul_left]
  congr 1
  exact List.map_congr_left fun t _ => t.denote_scale c

end Polynomial

/-! ## Expressions -/

namespace Expression

variable {a b e : Expression ℚ}

/-- The meaning of the slots, read as monomials. -/
theorem denote_monomials? {ms : List (Monomial ℚ)} (h : e.monomials? = some ms) :
    ms.map (·.denote ρ) = e.denote ρ := by
  rw [← denote_polynomials, polynomials_eq_map h, List.map_map]
  exact List.map_congr_left fun m _ => (Polynomial.denote_ofMonomial m).symm

@[simp] theorem length_negate {α : Type} [Scalar α] (e : Expression α) :
    e.negate.length = e.length := by
  cases e <;> simp [negate, length, Slots.length]

/-- The opposite of every slot. -/
@[simp] theorem denote_negate (e : Expression ℚ) :
    e.negate.denote ρ = (e.denote ρ).map (-·) := by
  cases e <;> simp [negate, denote, Function.comp_def]

theorem IsSum.denote (h : IsSum a b e) :
    broadcast? (· + ·) (a.denote ρ) (b.denote ρ) = some (e.denote ρ) := by
  cases h with
  | numbers ha hb h =>
    subst ha hb
    simpa [Expression.denote] using h
  | @like m n ha _ hn hlike =>
    subst ha
    have hsum : (Monomial.normalize (m.coefficient + n.coefficient) m.factors).denote ρ =
        m.denote ρ + n.denote ρ := by
      rw [Monomial.denote_normalize, Monomial.denote, Monomial.denote,
        ← Monomial.denote_factors_of_isLike hlike, add_mul]
    rw [← denote_monomials? hn]
    simp [broadcast?, Expression.denote, hsum]
  | polynomials h =>
    have hdenote := broadcast?_map (f := Polynomial.add) (g := (· + ·)) (u := (·.denote ρ))
      (v := (·.denote ρ)) (w := (·.denote ρ)) (fun p q => (Polynomial.denote_add p q).symm)
      a.polynomials b.polynomials
    rw [h, denote_polynomials, denote_polynomials] at hdenote
    simpa [Expression.denote] using hdenote

/-- **The sum has in every slot the sum of the slots**, and a slot of length one is repeated. -/
theorem denote_add (h : a.add b = .ok e) :
    broadcast? (· + ·) (a.denote ρ) (b.denote ρ) = some (e.denote ρ) := by
  rcases isSum_of_add h with h | h
  · exact h.denote
  · rw [broadcast?_comm fun x y => add_comm x y]
    exact h.denote

section Exists

variable {α : Type} [Scalar α] {a b : Expression α}

theorem exists_addPolynomials (h : a.length = b.length ∨ a.length = 1 ∨ b.length = 1) :
    ∃ e, addPolynomials a b = .ok e := by
  rw [← length_polynomials a, ← length_polynomials b] at h
  obtain ⟨sums, hsums⟩ := exists_zipSlots (f := Polynomial.add) h (.dimension .plus a b)
  exact ⟨_, bind_eq_ok_iff.mpr ⟨sums, hsums, rfl⟩⟩

theorem exists_addToHigher (h : a.isVector = false ∨ b.isVector = false ∨ a.length = b.length) :
    ∃ e, addToHigher a b = .ok e := by
  have hlength : a.length = b.length ∨ a.length = 1 ∨ b.length = 1 := by
    rcases h with ha | hb | hlength
    · exact .inr (.inl (length_of_scalar ha))
    · exact .inr (.inr (length_of_scalar hb))
    · exact .inl hlength
  unfold addToHigher
  split
  · next xs ys =>
    obtain ⟨sums, hsums⟩ := exists_zipSlots (f := (· + ·)) hlength _
    rw [if_pos (by simpa [isScalar, or_assoc] using h)]
    exact ⟨_, bind_eq_ok_iff.mpr ⟨sums, hsums, rfl⟩⟩
  · split
    · split
      · exact ⟨_, rfl⟩
      · exact exists_addPolynomials hlength
    · exact exists_addPolynomials hlength
  · exact exists_addPolynomials hlength

/-- Operands of equal lengths have a sum, and so do any two of which one is a scalar. -/
theorem exists_add (h : a.isVector = false ∨ b.isVector = false ∨ a.length = b.length) :
    ∃ e, a.add b = .ok e := by
  unfold add
  split
  · refine exists_addToHigher ?_
    rcases h with ha | hb | hlength
    · exact .inr (.inl ha)
    · exact .inl hb
    · exact .inr (.inr hlength.symm)
  · exact exists_addToHigher h

end Exists

end Expression

end AlgebraicModel
