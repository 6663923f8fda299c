import Mathlib
import AlgebraicModel.Proofs.Expression.Bases
import AlgebraicModel.Proofs.Expression.Decomposition
import AlgebraicModel.Proofs.Expression.Nonlinear
import AlgebraicModel.Scalar.Double

/-!
# When coefficients can be read off

Rows are filled term by term, and a term has no place in a row by the look of its factors: anything
but no factor, or one factor with exponent one. In normal form this is a statement about degrees. So
the coefficients of an expression exist exactly if its degree is at most one and its variables have
columns, and otherwise the error is that of the first term that offends.

## Main definitions

* `Monomial.Offence`: why a term has no coefficient in an ordering

## Main results

* `Expression.exists_mem_terms`: every variable of a normal form occurs in a term
* `Expression.exists_coefficients_iff`, `coefficients_eq_error_iff`: when there are coefficients
* `Expression.extraction_exact`: the same for what can be constructed, and in its own variables
-/

namespace AlgebraicModel

open Expression (Error)

/-! ## Terms that offend -/

namespace Monomial

variable {α : Type} {m : Monomial α} {order : ColumnOrder}

/-- A term has no coefficient in an ordering: its degree is above one, or it is one and the variable
has no column. -/
inductive Offence (m : Monomial α) (order : ColumnOrder) : Error α → Prop
  | nonlinear (hdegree : 1 < m.degree) : Offence m order (.nonlinearTerm m.degree)
  | missing {v : Variable} (hdegree : m.degree = 1) (hv : v ∈ m.bases) (hid : v.id ∉ order.ids) :
      Offence m order (.notInOrdering v.id)

variable [Scalar α]

/-- A term of degree at most one is a number, or a variable with a coefficient. -/
theorem bases_of_degree_le_one (hm : m.IsNormal) (hdegree : m.degree ≤ 1) :
    m.bases = [] ∧ m.degree = 0 ∨ ∃ v, m.bases = [v] ∧ m.degree = 1 := by
  rcases (Factor.degree_le_one_iff hm.factors).mp hdegree with hnil | ⟨v, hsingle⟩
  · exact .inl (by simp [bases, degree, hnil])
  · exact .inr ⟨v, by simp [bases, degree, hsingle]⟩

/-- A variable of a term shows in its degree. -/
theorem degree_pos_of_mem_bases (hm : m.IsNormal) {v : Variable} (hv : v ∈ m.bases) :
    0 < m.degree := by
  by_contra hzero
  rcases bases_of_degree_le_one hm (by omega) with ⟨hnil, -⟩ | ⟨u, -, hone⟩
  · rw [hnil] at hv
    cases hv
  · exact hzero (hone ▸ Nat.one_pos)

/-- The error that is reported for a term is that of its offence. -/
theorem offence?_eq_some_iff (hm : m.IsNormal) {cause : Error α} :
    m.offence? order = some cause ↔ m.Offence order cause := by
  unfold offence?
  split
  · next hlt =>
    constructor
    · rintro ⟨⟩
      exact .nonlinear hlt
    · rintro (_ | ⟨hdegree, -, -⟩)
      · rfl
      · omega
  · next hle =>
    rw [Option.map_eq_some_iff]
    constructor
    · rintro ⟨v, hfind, rfl⟩
      have hv := List.mem_of_find?_eq_some hfind
      have hid := List.find?_some hfind
      have hdegree := degree_pos_of_mem_bases hm hv
      exact .missing (by omega) hv (by simpa using hid)
    · rintro (hdegree | @⟨v, -, hv, hid⟩)
      · exact absurd hdegree hle
      · rcases bases_of_degree_le_one hm (not_lt.mp hle) with ⟨hnil, -⟩ | ⟨u, hsingle, -⟩
        · rw [hnil] at hv
          cases hv
        · obtain rfl : v = u := by simpa [hsingle] using hv
          exact ⟨v, by simp [hsingle, hid], rfl⟩

omit [Scalar α] in
theorem offence?_eq_none_iff :
    m.offence? order = none ↔ m.degree ≤ 1 ∧ ∀ v ∈ m.bases, v.id ∈ order.ids := by
  unfold offence?
  split
  · next hlt => simp [hlt]
  · next hle => simp [not_lt.mp hle]

end Monomial

/-! ## Expressions -/

namespace Expression

variable {α : Type} [Scalar α] {e : Expression α} {order : ColumnOrder}

/-- **Every variable of a normal form occurs in a term**: a slot that has a variable is not zero. -/
theorem exists_mem_terms (hone : ((1 : α) == 0) = false) (he : e.IsNormal) {v : Variable}
    (hv : v ∈ e.bases) : ∃ t ∈ e.terms, v ∈ t.bases := by
  simp only [mem_terms_iff]
  cases e with
  | const xs => cases hv
  | var vs =>
    refine ⟨.ofVariable v, ⟨_, List.mem_map_of_mem hv, ?_⟩, List.mem_singleton_self v⟩
    rw [Polynomial.terms_ofVariable hone]
    exact List.mem_singleton_self _
  | mono ms =>
    obtain ⟨m, hm, hv⟩ := mem_bases_mono_iff.mp hv
    have hdegree := Monomial.degree_pos_of_mem_bases (he m hm) hv
    exact ⟨m, ⟨_, List.mem_map_of_mem hm, Polynomial.mem_ofMonomial (he m hm) hdegree⟩, hv⟩
  | poly ps =>
    obtain ⟨p, hp, hv⟩ := mem_bases_poly_iff.mp hv
    obtain ⟨t, ht, hv⟩ := Polynomial.mem_bases_iff.mp hv
    exact ⟨t, ⟨p, hp, ht⟩, hv⟩

theorem isNormal_of_mem_terms (hone : ((1 : α) == 0) = false) (he : e.IsNormal) {t : Monomial α}
    (ht : t ∈ e.terms) : t.IsNormal := by
  obtain ⟨p, hp, ht⟩ := mem_terms_iff.mp ht
  exact (isNormal_polynomials hone he p hp).terms t ht

/-- **There are coefficients** where the degree is at most one and every variable has a column. -/
theorem exists_coefficients_iff (hone : ((1 : α) == 0) = false) (he : e.IsNormal) :
    (∃ a, e.coefficients order = .ok a) ↔ e.degree ≤ 1 ∧ ∀ v ∈ e.vars, v.id ∈ order.ids := by
  rw [← failure?_eq_none_iff, failure?_coefficients_eq hone he, List.findSome?_eq_none_iff]
  simp only [Monomial.offence?_eq_none_iff]
  rw [vars, Variable.forall_distinct_iff, ← not_lt, one_lt_degree_iff he]
  constructor
  · intro h
    constructor
    · rintro ⟨t, ht, hlt⟩
      exact absurd (h t ht).1 (not_le.mpr hlt)
    · intro v hv
      obtain ⟨t, ht, hv⟩ := exists_mem_terms hone he hv
      exact (h t ht).2 v hv
  · rintro ⟨hdegree, hids⟩ t ht
    exact ⟨not_lt.mp fun hlt => hdegree ⟨t, ht, hlt⟩,
      fun v hv => hids v (mem_bases_of_mem_terms ht hv)⟩

/-- **Otherwise the first term that offends is reported.** -/
theorem coefficients_eq_error_iff (hone : ((1 : α) == 0) = false) (he : e.IsNormal)
    {cause : Error α} :
    e.coefficients order = .error cause ↔ ∃ ts t us, e.terms = ts ++ t :: us ∧
      (∀ s ∈ ts, ∀ c, ¬ s.Offence order c) ∧ t.Offence order cause := by
  rw [← failure?_eq_some_iff, failure?_coefficients_eq hone he, List.findSome?_eq_some_iff]
  refine exists_congr fun ts => exists_congr fun t => exists_congr fun us =>
    and_congr_right fun hterms => ?_
  have hnormal : ∀ s ∈ ts ++ t :: us, s.IsNormal :=
    hterms ▸ fun s hs => isNormal_of_mem_terms hone he hs
  rw [Monomial.offence?_eq_some_iff (hnormal t (by simp)), and_comm]
  refine and_congr_left fun _ => forall₂_congr fun s hs => ?_
  rw [Option.eq_none_iff_forall_ne_some]
  exact forall_congr' fun c =>
    not_congr (Monomial.offence?_eq_some_iff (hnormal s (List.mem_append_left _ hs)))

/-- **Exactly when the coefficients of an expression over the doubles can be read off**, with which
error they cannot, and that in the variables of the expression only its degree counts. -/
theorem extraction_exact {e : Expression Float} (he : e.Constructed) :
    (∀ wrt : List Variable,
      ((∃ a, e.coefficients (.ofVariables wrt) = .ok a) ↔
        e.degree ≤ 1 ∧ ∀ v ∈ e.vars, v.id ∈ wrt.map (·.id)) ∧
      ∀ cause, e.coefficients (.ofVariables wrt) = .error cause ↔
        ∃ ts t us, e.terms = ts ++ t :: us ∧
          (∀ s ∈ ts, ∀ c, ¬ s.Offence (.ofVariables wrt) c) ∧ t.Offence (.ofVariables wrt) cause) ∧
    (e.family ≠ .const → ((∃ a, e.ownCoefficients = .ok a) ↔ e.degree ≤ 1) ∧
      ∀ a, e.ownCoefficients = .ok a →
        a.cols = e.vars.length ∧ ∀ row ∈ a.rows, row.length = e.vars.length) := by
  have hone : ((1 : Float) == 0) = false := by decide
  have he := he.isNormal hone
  refine ⟨fun wrt => ⟨exists_coefficients_iff hone he, fun cause =>
    coefficients_eq_error_iff hone he⟩, fun hfamily => ?_⟩
  rw [ownCoefficients_eq_coefficients hfamily]
  constructor
  · rw [exists_coefficients_iff hone he]
    exact and_iff_left fun v hv => List.mem_map_of_mem hv
  · intro a h
    obtain ⟨hcols, -, hrows⟩ := coefficients_shape h
    rw [ColumnOrder.width_ofVariables] at hcols hrows
    exact ⟨hcols, hrows⟩

/-- The sum `2 * x + y * y`, and the column of `x` and `y`, in orderings without `y`. -/
theorem extraction_exact_errors :
    let x : Variable := ⟨⟨1⟩, .unit, .binary⟩
    let y : Variable := ⟨⟨2⟩, .unit, .binary⟩
    let p : Expression Float := poly (.scalar (.ofTerms [⟨2, [⟨x, 1⟩]⟩, ⟨1, [⟨y, 2⟩]⟩]))
    let e : Expression Float := var (.vector [x, y])
    p.Constructed ∧ p.coefficients (.ofVariables [x]) = .error (.nonlinearTerm 2) ∧
      e.coefficients (.ofVariables [x]) = .error (.notInOrdering y.id) ∧
      (∃ a, e.coefficients (.ofVariables [y, x]) = .ok a) ∧
      (∃ a, e.ownCoefficients = .ok a ∧ a.cols = 2) := by
  intro x y p e
  have hp : p.Constructed := .polynomial (by
    intro t ht
    rcases List.mem_pair.mp ht with rfl | rfl
    · exact .monomial (show Monomial.ofFactors? 2 [⟨x, 1⟩] = some ⟨2, [⟨x, 1⟩]⟩ from rfl)
    · exact .monomial (show Monomial.ofFactors? 1 [⟨y, 2⟩] = some ⟨1, [⟨y, 2⟩]⟩ from rfl))
  have hx : ∀ m : Monomial Float, m.bases = [x] → m.degree = 1 →
      ∀ c, ¬ m.Offence (.ofVariables [x]) c := by
    rintro m hbases hdegree c (hlt | @⟨v, -, hv, hid⟩)
    · omega
    · obtain rfl : v = x := by simpa [hbases] using hv
      exact hid (List.mem_singleton_self _)
  obtain ⟨hpextract, -⟩ := extraction_exact hp
  obtain ⟨hextract, hown⟩ := extraction_exact (.var (.vector [x, y]))
  have hmiss : y.id ∉ (ColumnOrder.ofVariables [x]).ids := by decide
  have hone : ((1 : Float) == 0) = false := by decide
  have hpterms : p.terms = [⟨2, [⟨x, 1⟩]⟩] ++ ⟨1, [⟨y, 2⟩]⟩ :: [] := by
    have htwo : ((2 : Float) == 0) = false := by decide
    have hunlike : (⟨2, [⟨x, 1⟩]⟩ : Monomial Float).isLike ⟨1, [⟨y, 2⟩]⟩ = false := by
      decide +kernel
    simp [p, terms, polynomials, Polynomial.ofTerms, Monomial.insert, bne, hone, htwo, hunlike]
  have hterms : e.terms = [.ofVariable x] ++ .ofVariable y :: [] := by
    simp [e, terms, polynomials, Slots.toList, Polynomial.terms_ofVariable hone]
  refine ⟨hp, ((hpextract [x]).2 _).mpr ⟨[⟨2, [⟨x, 1⟩]⟩], ⟨1, [⟨y, 2⟩]⟩, [], hpterms, ?_, ?_⟩,
    ((hextract [x]).2 _).mpr ⟨[.ofVariable x], .ofVariable y, [], hterms, ?_, ?_⟩,
    (hextract [y, x]).1.mpr ⟨by decide, by decide⟩, ?_⟩
  · exact List.forall_mem_singleton.mpr (hx _ rfl rfl)
  · exact .nonlinear (show 1 < 2 by decide)
  · exact List.forall_mem_singleton.mpr (hx _ rfl rfl)
  · exact .missing rfl (List.mem_singleton_self y) hmiss
  · obtain ⟨hok, hshape⟩ := hown (by decide)
    obtain ⟨a, ha⟩ := hok.mpr (by decide)
    exact ⟨a, ha, (hshape a ha).1⟩

end Expression

end AlgebraicModel
