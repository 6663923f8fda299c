import Mathlib
import AlgebraicModel.Proofs.Expression.FormalArithmetic
import AlgebraicModel.Proofs.Expression.Slotwise

/-!
# Derivatives

The partial derivative of an expression is that of its formal polynomials, slot by slot. Lowering an
exponent in place is right because a normal product has every variable once and no exponent that is
zero already; a variable that does not occur has the exponent zero, and leaves zero terms.

## Main results

* `Factor.exponents_lower`: lowering the exponent of a variable
* `Monomial.formal_derivative`, `Polynomial.formal_derivative`: derivatives of normal forms
* `Expression.derivative_slotwise`: derivatives of expressions, of their sums and of their products
-/

namespace AlgebraicModel

open MvPolynomial (C X pderiv)

/-! ## Monomials -/

namespace Factor

/-- Lowering the exponent of a variable that occurs takes one power of it away. -/
theorem exponents_lower {fs : List Factor} (hpositive : ∀ f ∈ fs, f.exponent ≠ 0)
    {id : VariableId} (hid : id ∈ fs.map (·.base.id)) :
    exponents (lower id fs) + Finsupp.single id 1 = exponents fs := by
  induction fs with
  | nil => simp at hid
  | cons f fs ih =>
    obtain ⟨hf, hrest⟩ := List.forall_mem_cons.mp hpositive
    rw [lower]
    split
    · next heq =>
      have hexponent : f.exponent - 1 + 1 = f.exponent := Nat.succ_pred hf
      rw [exponents_cons, exponents_cons, add_right_comm, heq, ← Finsupp.single_add, hexponent]
    · next hne =>
      have hid : id ∈ fs.map (·.base.id) := by simpa [Ne.symm hne] using hid
      rw [exponents_cons, exponents_cons, add_assoc, ih hrest hid]

end Factor

theorem Monomial.formal_derivative {m : Monomial ℚ} (hm : m.IsNormal) (id : VariableId) :
    (m.derivative id).formal = pderiv id m.formal := by
  rw [formal.eq_def m, MvPolynomial.pderiv_monomial, derivative]
  split
  · next hnone =>
    have hid : id ∉ m.factors.map (·.base.id) := by simpa using hnone
    rw [Factor.exponents_apply_eq_zero hid]
    simp
  · next f hf =>
    have hmem : f ∈ m.factors := List.mem_of_find?_eq_some hf
    obtain rfl : f.base.id = id := by simpa using List.find?_some hf
    have hlower := Factor.exponents_lower hm.factors.positive (List.mem_map_of_mem hmem)
    rw [formal_normalize, Factor.exponents_apply_of_mem hm.factors.distinct hmem, ← hlower,
      add_tsub_cancel_right]
    rfl

/-! ## Polynomials -/

theorem Polynomial.formal_derivative {p : Polynomial ℚ} (hp : p.IsNormal) (id : VariableId) :
    (p.derivative id).formal = pderiv id p.formal := by
  rw [derivative, formal_ofTerms, formal, map_list_sum, List.map_map, List.map_map]
  congr 1
  exact List.map_congr_left fun t ht => Monomial.formal_derivative (hp.terms t ht) id

/-! ## Expressions -/

namespace Expression

section Shape

variable {α : Type} [Scalar α]

@[simp] theorem length_derivative (e : Expression α) (id : VariableId) :
    (e.derivative id).length = e.length := by
  cases e <;> simp [derivative, length, Slots.length]

@[simp] theorem isVector_derivative (e : Expression α) (id : VariableId) :
    (e.derivative id).isVector = e.isVector := by
  cases e with
  | const s | var s | mono s | poly s => cases s <;> rfl

end Shape

variable {e : Expression ℚ}

theorem formal_derivative (he : e.IsNormal) (id : VariableId) :
    (e.derivative id).formal = e.formal.map (pderiv id) := by
  cases e with
  | const xs => simp [derivative, formal, Function.comp_def]
  | var vs =>
    simp only [derivative, formal, Slots.toList_map, List.map_map]
    refine List.map_congr_left fun v _ => ?_
    by_cases hv : v.id = id
    · simp [hv]
    · simp [hv, MvPolynomial.pderiv_X_of_ne hv]
  | mono ms =>
    simp only [derivative, formal, Slots.toList_map, List.map_map]
    exact List.map_congr_left fun m hm => Monomial.formal_derivative (he m hm) id
  | poly ps =>
    simp only [derivative, formal, Slots.toList_map, List.map_map]
    exact List.map_congr_left fun p hp => Polynomial.formal_derivative (he p hp) id

/-- **The derivative is the formal partial derivative.** It has the shape of the expression and in
every slot the partial derivative of the slot. The derivative of a sum of scalars is the sum of the
derivatives, and that of a product follows the product rule. -/
theorem derivative_slotwise :
    (∀ e : Expression ℚ, e.Constructed → ∀ v : Variable,
      (e.derivative v.id).length = e.length ∧ (e.derivative v.id).isVector = e.isVector ∧
        (e.derivative v.id).formal = e.formal.map (pderiv v.id)) ∧
    ∀ a b : Expression ℚ, a.Constructed → b.Constructed → a.isVector = false →
      b.isVector = false → ∀ v : Variable, ∃ p q p' q',
        a.formal = [p] ∧ b.formal = [q] ∧ (a.derivative v.id).formal = [p'] ∧
          (b.derivative v.id).formal = [q'] ∧
          (∀ s, (a.plus (.expression b)).result = .ok s →
            (s.derivative v.id).formal = [p' + q']) ∧
          ∀ s, (a.multiply (.expression b)).result = .ok s →
            (s.derivative v.id).formal = [p' * q + p * q'] := by
  have hone : ((1 : ℚ) == 0) = false := by decide
  refine ⟨fun e he v => ⟨e.length_derivative v.id, e.isVector_derivative v.id,
    formal_derivative (he.isNormal hone) v.id⟩, ?_⟩
  intro a b ha hb hascalar hbscalar v
  obtain ⟨p, hp⟩ := exists_formal_eq_singleton hascalar
  obtain ⟨q, hq⟩ := exists_formal_eq_singleton hbscalar
  refine ⟨p, q, pderiv v.id p, pderiv v.id q, hp, hq, ?_, ?_, fun s hs => ?_, fun s hs => ?_⟩
  · rw [formal_derivative (ha.isNormal hone), hp, List.map_singleton]
  · rw [formal_derivative (hb.isNormal hone), hq, List.map_singleton]
  · have hnormal : s.IsNormal := (Constructed.plus ha hb rfl hs).isNormal hone
    have hsum := formal_add_singleton (plus_expression_iff.mp hs).2 hp hq
    rw [formal_derivative hnormal, hsum, List.map_singleton, map_add]
  · have hnormal : s.IsNormal := (Constructed.multiply ha hb rfl hs).isNormal hone
    obtain ⟨c, hc, -, hmul⟩ := multiply_eq_ok_iff.mp hs
    obtain ⟨-, -, rfl⟩ := checkedOperand_expression_iff.mp hc
    have hproduct := formal_mul_singleton hmul hp hq
    rw [formal_derivative hnormal, hproduct, List.map_singleton, MvPolynomial.pderiv_mul]

/-- The column of `3 * x₁ ^ 2 * x₂` and `5`, and the scalars `3 * x₁ ^ 2 * x₂` and `x₁ + 2`, by a
record of `x₁` with other bounds. -/
theorem derivative_slotwise_monomial :
    let x₁ : Variable := ⟨⟨1⟩, {}, .integer⟩
    let x₂ : Variable := ⟨⟨2⟩, {}, .integer⟩
    let v : Variable := ⟨⟨1⟩, ⟨0, 1⟩, .binary⟩
    let m : Monomial ℚ := ⟨3, [⟨x₁, 2⟩, ⟨x₂, 1⟩]⟩
    let e : Expression ℚ := mono (.vector [m, .const 5])
    let a : Expression ℚ := mono (.scalar m)
    let b : Expression ℚ := poly (.scalar (.ofTerms [.ofVariable x₁, .const 2]))
    e.Constructed ∧ (e.derivative v.id).isVector ∧
      (e.derivative v.id).formal = [6 * X ⟨1⟩ * X ⟨2⟩, 0] ∧
      a.Constructed ∧ b.Constructed ∧
      (∃ s, (a.plus (.expression b)).result = .ok s ∧
        (s.derivative v.id).formal = [6 * X ⟨1⟩ * X ⟨2⟩ + 1]) ∧
      ∃ s, (a.multiply (.expression b)).result = .ok s ∧
        (s.derivative v.id).formal = [9 * X ⟨1⟩ ^ 2 * X ⟨2⟩ + 12 * X ⟨1⟩ * X ⟨2⟩] := by
  intro x₁ x₂ v m e a b
  have ha : a.Constructed :=
    .monomial (show Monomial.ofFactors? 3 [⟨x₁, 2⟩, ⟨x₂, 1⟩] = some m from rfl)
  have he : e.Constructed := .monomials (by
    intro n hn
    rcases List.mem_pair.mp hn with rfl | rfl
    · exact ha
    · exact .constMonomial 5)
  have hb : b.Constructed := .polynomial (by
    intro t ht
    rcases List.mem_pair.mp ht with rfl | rfl
    · exact .variableMonomial x₁
    · exact .constMonomial 2)
  have hm : m.formal = C 3 * X ⟨1⟩ ^ 2 * X ⟨2⟩ := by
    refine MvPolynomial.funext fun ρ => ?_
    simp [Monomial.denote, m, x₁, x₂, mul_assoc]
  have heformal : e.formal = [m.formal, C 5] := rfl
  have hbformal : b.formal = [X ⟨1⟩ + C 2] := by simp [b, formal, Polynomial.formal_ofTerms, x₁]
  have hm' : pderiv v.id m.formal = 6 * X ⟨1⟩ * X ⟨2⟩ := by
    have hne : (⟨2⟩ : VariableId) ≠ ⟨1⟩ := by decide
    rw [hm, mul_assoc, MvPolynomial.pderiv_C_mul, map_ofNat C 3]
    simp [v, MvPolynomial.pderiv_X_of_ne hne]
    ring
  have hsum : (a.plus (.expression b)).result.toOption.isSome := by decide +kernel
  have hproduct : (a.multiply (.expression b)).result.toOption.isSome := by decide +kernel
  obtain ⟨s, hs⟩ := Option.isSome_iff_exists.mp hsum
  obtain ⟨r, hr⟩ := Option.isSome_iff_exists.mp hproduct
  obtain ⟨hslots, hrules⟩ := derivative_slotwise
  have hvector : (e.derivative v.id).isVector = e.isVector := (hslots e he v).2.1
  have hcolumn : (e.derivative v.id).formal = e.formal.map (pderiv v.id) := (hslots e he v).2.2
  have haslot : (a.derivative v.id).formal = a.formal.map (pderiv v.id) := (hslots a ha v).2.2
  have hbslot : (b.derivative v.id).formal = b.formal.map (pderiv v.id) := (hslots b hb v).2.2
  obtain ⟨p, q, p', q', hp, hq, hp', hq', hplus, hmultiply⟩ := hrules a b ha hb rfl rfl v
  have hpm : p = m.formal := (List.singleton_inj.mp hp).symm
  have hqb : q = X ⟨1⟩ + C 2 := by
    rw [hbformal] at hq
    exact (List.singleton_inj.mp hq).symm
  have hpm' : p' = 6 * X ⟨1⟩ * X ⟨2⟩ := by
    rw [hp, hp', List.map_singleton, List.singleton_inj] at haslot
    rw [haslot, hpm, hm']
  have hqb' : q' = 1 := by
    rw [hq, hq', List.map_singleton, List.singleton_inj] at hbslot
    rw [hbslot, hqb, map_add, MvPolynomial.pderiv_C, add_zero]
    exact MvPolynomial.pderiv_X_self _
  have hsum' := hplus s (eq_ok_of_toOption hs)
  have hproduct' := hmultiply r (eq_ok_of_toOption hr)
  refine ⟨he, hvector, ?_, ha, hb, ⟨s, eq_ok_of_toOption hs, ?_⟩, r, eq_ok_of_toOption hr, ?_⟩
  · simp only [hcolumn, heformal, List.map_cons, List.map_nil, hm', MvPolynomial.pderiv_C]
  · rw [hsum', hpm', hqb']
  · rw [hproduct', hpm', hqb', hpm, hqb, hm, map_ofNat C 2, map_ofNat C 3, List.singleton_inj]
    ring

end Expression

end AlgebraicModel
