import Mathlib
import AlgebraicModel.Proofs.Expression.Formal
import AlgebraicModel.Proofs.Expression.Nonlinear
import AlgebraicModel.Proofs.Variable.Distinct

/-!
# Which expressions are affine

Coefficients are refused for the look of a term: one of a degree above one. In normal form a term
that is there matters, so an expression with such a term is no affine function of its variables,
and every expression that is one has coefficients.

## Main definitions

* `Expression.IsAffine`: the value is a matrix times the point, plus a column
* `affineFormal`: a row and a constant as a formal polynomial

## Main results

* `Expression.IsAffine.degree_le_one`: an affine expression has no term of a degree above one
* `Expression.nonlinear_iff_not_affine`: coefficients are refused exactly if there are none
-/

namespace AlgebraicModel

open MvPolynomial (C X coeff eval)

variable {ρ : Valuation}

/-! ## Affine polynomials -/

/-- The sum of the variables times the coefficients of a row, plus a constant. -/
noncomputable def affineFormal (row : List ℚ) (ids : List VariableId) (b : ℚ) :
    MvPolynomial VariableId ℚ :=
  (row.zipWith (fun c id => C c * X id) ids).sum + C b

@[simp] theorem eval_affineFormal (row : List ℚ) (ids : List VariableId) (b : ℚ) :
    eval ρ (affineFormal row ids b) = inner row (ids.map ρ) + b := by
  rw [affineFormal, map_add, map_list_sum, MvPolynomial.eval_C, inner, List.map_zipWith,
    List.zipWith_map_right]
  simp

/-- An affine polynomial has no coefficient at exponents of a degree above one. -/
theorem coeff_affineFormal (row : List ℚ) (ids : List VariableId) (b : ℚ) {d : VariableId →₀ ℕ}
    (hd : 1 < d.degree) : coeff d (affineFormal row ids b) = 0 := by
  have hconstant : 0 ≠ d := by
    rintro rfl
    simp at hd
  have hvariable (id : VariableId) : Finsupp.single id 1 ≠ d := by
    rintro rfl
    simp at hd
  rw [affineFormal, MvPolynomial.coeff_add, MvPolynomial.coeff_C, if_neg hconstant, add_zero]
  induction row generalizing ids with
  | nil => simp
  | cons c row ih =>
    cases ids with
    | nil => simp
    | cons id ids =>
      rw [List.zipWith_cons_cons, List.sum_cons, MvPolynomial.coeff_add, ih, add_zero,
        MvPolynomial.C_mul_X_eq_monomial, MvPolynomial.coeff_monomial, if_neg (hvariable id)]

/-! ## Affine expressions -/

namespace Expression

variable {e : Expression ℚ} {wrt : List Variable} {a : Matrix ℚ} {b : List ℚ}

/-- At every point of an ordering, the value of every slot is a row of the matrix times the point,
plus an entry of the column. -/
structure IsAffine (e : Expression ℚ) (wrt : List Variable) (a : Matrix ℚ) (b : List ℚ) :
    Prop where
  rows : a.rows.length = e.length
  cols : a.cols = wrt.length
  width : ∀ row ∈ a.rows, row.length = wrt.length
  constants : b.length = e.length
  value : ∀ (σ : Assignment ℚ) (x : List ℚ), σ.point? wrt = some x →
    e.evaluate σ = .ok ((a.apply x).zipWith (· + ·) b)

/-- Every slot of an affine expression is an affine function of the variables. -/
theorem IsAffine.exists_row (h : e.IsAffine wrt a b) {p : Polynomial ℚ} (hp : p ∈ e.polynomials) :
    ∃ row c, ∀ ρ : Valuation, p.denote ρ = inner row ((wrt.map (·.id)).map ρ) + c := by
  obtain ⟨i, hi⟩ := List.mem_iff_getElem?.mp hp
  have hlt : i < e.length := length_polynomials e ▸ (List.getElem?_eq_some_iff.mp hi).1
  obtain ⟨row, hrow⟩ : ∃ row, a.rows[i]? = some row :=
    ⟨_, List.getElem?_eq_getElem (h.rows.symm ▸ hlt)⟩
  obtain ⟨c, hconstant⟩ : ∃ c, b[i]? = some c :=
    ⟨_, List.getElem?_eq_getElem (h.constants.symm ▸ hlt)⟩
  refine ⟨row, c, fun ρ => ?_⟩
  have hgives (vs : List Variable) : Assignment.Gives (fun id => some (ρ id)) ρ vs := fun _ _ => rfl
  have hvalue := h.value _ _ ((Assignment.point?_eq_some_iff (hgives wrt)).mpr rfl)
  rw [evaluate_eq_denote (hgives _), Except.ok.injEq, ← denote_polynomials] at hvalue
  have hslot := congrArg (·[i]?) hvalue
  simpa [hi, Matrix.apply, hrow, hconstant, List.getElem?_zipWith, Function.comp_def] using hslot

/-- **An affine expression has no term of a degree above one.** -/
theorem IsAffine.degree_le_one (h : e.IsAffine wrt a b) (he : e.IsNormal) :
    ∀ t ∈ e.terms, t.degree ≤ 1 := by
  intro t ht
  by_contra hdegree
  obtain ⟨p, hp, ht⟩ := mem_terms_iff.mp ht
  obtain ⟨row, c, hrow⟩ := h.exists_row hp
  have hnormal := isNormal_polynomials (by decide) he p hp
  -- The slot and its affine form are one formal polynomial, for they have the same values; but only
  -- one of them has a coefficient at the exponents of the term.
  have hformal : p.formal = affineFormal row (wrt.map (·.id)) c := by
    refine MvPolynomial.funext fun ρ => ?_
    rw [Polynomial.eval_formal, eval_affineFormal]
    exact hrow ρ
  have hcoefficient := Polynomial.coeff_formal_of_mem hnormal ht
  rw [hformal, coeff_affineFormal] at hcoefficient
  · exact Polynomial.coefficient_ne_zero hnormal ht hcoefficient.symm
  · rw [Factor.degree_exponents]
    exact not_le.mp hdegree

/-- Coefficients that can be read off show that the expression is affine. -/
theorem isAffine_of_coefficients (hbases : ∀ v ∈ e.bases, v.id ∈ wrt.map (·.id))
    (h : e.coefficients (.ofVariables wrt) = .ok a) : e.IsAffine wrt a e.constant := by
  obtain ⟨hcols, hrows, hwidth⟩ := coefficients_shape h
  rw [ColumnOrder.width_ofVariables] at hcols hwidth
  refine ⟨hrows, hcols, hwidth, length_constant e, fun σ x hx => ?_⟩
  obtain ⟨ρ, hgives, rfl⟩ := Assignment.exists_gives hx
  rw [evaluate_eq_denote (hgives.of_mem_ids hbases), denote_eq_apply_add_constant h]

end Expression

/-- **Coefficients are refused exactly if there are none.** In an ordering with all variables of a
constructed expression, the coefficients fail with a term that is not linear if and only if no
matrix and column give the value at every point. So an affine expression has coefficients. -/
theorem Expression.nonlinear_iff_not_affine {e : Expression ℚ} (he : e.Constructed)
    {wrt : List Variable} (hwrt : ∀ v ∈ e.vars, v.id ∈ wrt.map (·.id)) :
    ((∃ degree, e.coefficients (.ofVariables wrt) = .error (.nonlinearTerm degree)) ↔
      ¬ ∃ a b, e.IsAffine wrt a b) ∧
    ((∃ a b, e.IsAffine wrt a b) → ∃ a, e.coefficients (.ofVariables wrt) = .ok a) := by
  have hnormal := he.isNormal (by decide)
  have hbases : ∀ v ∈ e.bases, v.id ∈ wrt.map (·.id) := by
    intro v hv
    obtain ⟨u, hu, hid⟩ := Variable.exists_mem_distinct hv
    exact hid ▸ hwrt u hu
  have hfailure : failure? (e.coefficients (.ofVariables wrt)) = firstNonlinear? e.terms :=
    failure?_coefficients (by decide) hnormal hbases
  have haffine : (∃ a b, e.IsAffine wrt a b) → ∃ a, e.coefficients (.ofVariables wrt) = .ok a := by
    rintro ⟨a, b, h⟩
    rw [← failure?_eq_none_iff, hfailure, firstNonlinear?_eq_none_iff]
    exact h.degree_le_one hnormal
  refine ⟨⟨?_, fun hnone => ?_⟩, haffine⟩
  · rintro ⟨degree, herror⟩ h
    obtain ⟨a, ha⟩ := haffine h
    rw [herror] at ha
    cases ha
  · -- Coefficients would make the expression affine, so there is an error, which is that of a term.
    cases hresult : e.coefficients (.ofVariables wrt) with
    | ok a => exact (hnone ⟨a, _, isAffine_of_coefficients hbases hresult⟩).elim
    | error cause =>
      rw [hresult, failure?_error, firstNonlinear?_eq_map, eq_comm, Option.map_eq_some_iff] at hfailure
      obtain ⟨t, -, rfl⟩ := hfailure
      exact ⟨t.degree, rfl⟩

/-- The square `x₁²` is not affine, and the sum `x₁² + x₁ - x₁²` is. -/
theorem Expression.nonlinear_iff_not_affine_square :
    let x₁ : Variable := ⟨⟨1⟩, {}, .integer⟩
    let square (c : ℚ) : Monomial ℚ := ⟨c, [⟨x₁, 2⟩]⟩
    let e : Expression ℚ := mono (.scalar (square 1))
    let d : Expression ℚ := poly (.scalar (.ofTerms [square 1, .ofVariable x₁, square (-1)]))
    e.Constructed ∧ d.Constructed ∧ (∀ v ∈ e.vars ++ d.vars, v.id ∈ [x₁].map (·.id)) ∧
      (¬ ∃ a b, e.IsAffine [x₁] a b) ∧ ∃ a b, d.IsAffine [x₁] a b := by
  intro x₁ square e d
  have he : e.Constructed := .monomial (show Monomial.ofFactors? 1 [⟨x₁, 2⟩] = some _ from rfl)
  have hd : d.Constructed := .polynomial fun t ht => by
    rcases List.mem_cons.mp ht with rfl | ht
    · exact he
    · rcases List.mem_pair.mp ht with rfl | rfl
      · exact .variableMonomial x₁
      · exact .monomial (show Monomial.ofFactors? (-1) [⟨x₁, 2⟩] = some _ from rfl)
  have hids : ∀ v ∈ e.vars ++ d.vars, v.id ∈ [x₁].map (·.id) := by decide +kernel
  obtain ⟨heids, hdids⟩ := List.forall_mem_append.mp hids
  have hsquare : e.coefficients (.ofVariables [x₁]) = .error (.nonlinearTerm 2) := rfl
  have hcancelled : d.coefficients (.ofVariables [x₁]) = .ok ⟨1, [[1]]⟩ :=
    eq_ok_of_toOption (by decide +kernel)
  refine ⟨he, hd, hids, (nonlinear_iff_not_affine he heids).1.mp ⟨2, hsquare⟩, ?_⟩
  by_contra hnone
  obtain ⟨degree, herror⟩ := (nonlinear_iff_not_affine hd hdids).1.mpr hnone
  rw [hcancelled] at herror
  cases herror

end AlgebraicModel
