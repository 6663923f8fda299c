import Mathlib
import AlgebraicModel.Proofs.Except.Failure
import AlgebraicModel.Proofs.Expression.AffineForm
import AlgebraicModel.Proofs.Expression.Constructed

/-!
# Terms without a coefficient

Coefficients are asked of the terms of an expression one after the other, slot by slot. In normal
form a term has one exactly if its degree is at most one and its variable has a column. The first
term without one decides the error; where every variable has a column it is the first term of a
higher degree, and there is no other error.

## Main definitions

* `Expression.terms`: the terms of all slots, in order
* `Monomial.offence?`: the error of a term in an ordering
* `Monomial.nonlinear?`, `firstNonlinear?`: the error of a term in any ordering, and the first one
  of several

## Main results

* `Factor.degree_le_one_iff`: what a normal product of degree at most one looks like
* `Expression.one_lt_degree_iff`: the degree of an expression is that of its terms
* `Expression.failure?_coefficients_eq`: with which error the coefficients cannot be read off
* `Expression.failure?_coefficients`: the same where every variable has a column
-/

namespace AlgebraicModel

open Expression (Error)

variable {α : Type}

/-! ## The error of a term -/

/-- The error of a term that has no coefficient. -/
def Monomial.nonlinear? (m : Monomial α) : Option (Error α) :=
  if 1 < m.degree then some (.nonlinearTerm m.degree) else none

/-- The error of the first term that has no coefficient. -/
def firstNonlinear? (ts : List (Monomial α)) : Option (Error α) :=
  ts.findSome? (·.nonlinear?)

theorem firstNonlinear?_eq_map (ts : List (Monomial α)) :
    firstNonlinear? ts = (ts.find? (1 < ·.degree)).map fun t => .nonlinearTerm t.degree :=
  findSome?_ite _ ts

theorem firstNonlinear?_append (ss ts : List (Monomial α)) :
    firstNonlinear? (ss ++ ts) = (firstNonlinear? ss).or (firstNonlinear? ts) :=
  List.findSome?_append

theorem firstNonlinear?_eq_none_iff {ts : List (Monomial α)} :
    firstNonlinear? ts = none ↔ ∀ t ∈ ts, t.degree ≤ 1 := by
  simp [firstNonlinear?, Monomial.nonlinear?]

/-- A normal product of degree at most one is empty, or a variable to the first power. -/
theorem Factor.degree_le_one_iff {fs : List Factor} (h : IsNormal fs) :
    degree fs ≤ 1 ↔ fs = [] ∨ ∃ v, fs = [⟨v, 1⟩] := by
  rcases fs with _ | ⟨⟨v, n⟩, _ | ⟨g, fs⟩⟩
  · simp
  · have hn : n ≠ 0 := h.positive ⟨v, n⟩ (by simp)
    simp
    omega
  · have hn : n ≠ 0 := h.positive ⟨v, n⟩ (by simp)
    have hg : g.exponent ≠ 0 := h.positive g (by simp)
    simp
    omega

/-! ## Degrees -/

theorem lt_foldr_max_iff {n : ℕ} {xs : List ℕ} : n < xs.foldr max 0 ↔ ∃ x ∈ xs, n < x := by
  induction xs with
  | nil => simp
  | cons x xs ih => simp [ih]

namespace Polynomial

theorem lt_degree_iff {n : ℕ} {p : Polynomial α} : n < p.degree ↔ ∃ t ∈ p.terms, n < t.degree := by
  rw [degree, lt_foldr_max_iff]
  simp

variable [Scalar α] {m t : Monomial α}

/-- What is collected of a single term is that term, or nothing. -/
theorem eq_of_mem_ofMonomial (ht : t ∈ (ofMonomial m).terms) : t = m := by
  simpa [ofMonomial, ofTerms, Monomial.insert] using (List.mem_filter.mp ht).1

/-- A term of a positive degree is not dropped. -/
theorem mem_ofMonomial (hm : m.IsNormal) (hdegree : 0 < m.degree) : m ∈ (ofMonomial m).terms := by
  have hcoefficient : (m.coefficient == 0) = false := by
    by_contra hzero
    have hfactors := hm.collapsed (by simpa using hzero)
    simp [Monomial.degree, hfactors] at hdegree
  simp [ofMonomial, ofTerms, Monomial.insert, bne, hcoefficient]

end Polynomial

namespace Expression

variable [Scalar α] {e : Expression α} {t : Monomial α}

/-- The terms of all slots, in order. -/
def terms (e : Expression α) : List (Monomial α) :=
  e.polynomials.flatMap (·.terms)

theorem mem_terms_iff : t ∈ e.terms ↔ ∃ p ∈ e.polynomials, t ∈ p.terms := List.mem_flatMap

/-- Where a term comes from. -/
theorem mem_terms_cases : t ∈ e.terms →
    match e with
    | const _ => t.factors = []
    | var vs => ∃ v ∈ vs.toList, t = .ofVariable v
    | mono ms => t ∈ ms.toList
    | poly ps => ∃ p ∈ ps.toList, t ∈ p.terms := by
  rw [mem_terms_iff]
  rintro ⟨p, hp, ht⟩
  cases e with
  | const xs =>
    obtain ⟨x, -, rfl⟩ := List.mem_map.mp hp
    rw [Polynomial.eq_of_mem_ofMonomial ht, Monomial.const]
  | var vs =>
    obtain ⟨v, hv, rfl⟩ := List.mem_map.mp hp
    exact ⟨v, hv, Polynomial.eq_of_mem_ofMonomial ht⟩
  | mono ms =>
    obtain ⟨m, hm, rfl⟩ := List.mem_map.mp hp
    rwa [Polynomial.eq_of_mem_ofMonomial ht]
  | poly ps => exact ⟨p, hp, ht⟩

/-- The variables of the terms are those of the expression. -/
theorem mem_bases_of_mem_terms (ht : t ∈ e.terms) {v : Variable} (hv : v ∈ t.bases) :
    v ∈ e.bases := by
  have hcases := mem_terms_cases ht
  cases e with
  | const xs => simp [Monomial.bases, hcases] at hv
  | var vs =>
    obtain ⟨u, hu, rfl⟩ := hcases
    obtain rfl : v = u := by simpa [Monomial.bases, Monomial.ofVariable] using hv
    exact hu
  | mono ms => exact List.mem_flatMap.mpr ⟨t, hcases, hv⟩
  | poly ps =>
    obtain ⟨p, hp, ht⟩ := hcases
    exact List.mem_flatMap.mpr ⟨p, hp, List.mem_flatMap.mpr ⟨t, ht, hv⟩⟩

/-- The degree is above one where that of a term is. -/
theorem one_lt_degree_iff (he : e.IsNormal) : 1 < e.degree ↔ ∃ t ∈ e.terms, 1 < t.degree := by
  constructor
  · intro h
    cases e with
    | const xs => simp [degree] at h
    | var vs => simp only [degree] at h; split at h <;> omega
    | mono ms =>
      obtain ⟨m, hm, hdegree⟩ : ∃ m ∈ ms.toList, 1 < m.degree := by
        simpa using lt_foldr_max_iff.mp h
      have hmem := Polynomial.mem_ofMonomial (he m hm) (by omega)
      exact ⟨m, mem_terms_iff.mpr ⟨_, List.mem_map_of_mem hm, hmem⟩, hdegree⟩
    | poly ps =>
      obtain ⟨p, hp, hdegree⟩ : ∃ p ∈ ps.toList, 1 < p.degree := by
        simpa using lt_foldr_max_iff.mp h
      obtain ⟨t, ht, hdegree⟩ := Polynomial.lt_degree_iff.mp hdegree
      exact ⟨t, mem_terms_iff.mpr ⟨p, hp, ht⟩, hdegree⟩
  · rintro ⟨t, ht, hdegree⟩
    have hcases := mem_terms_cases ht
    cases e with
    | const xs => simp [Monomial.degree, hcases] at hdegree
    | var vs =>
      obtain ⟨v, -, rfl⟩ := hcases
      simp [Monomial.degree, Monomial.ofVariable] at hdegree
    | mono ms => exact lt_foldr_max_iff.mpr ⟨t.degree, List.mem_map_of_mem hcases, hdegree⟩
    | poly ps =>
      obtain ⟨p, hp, ht⟩ := hcases
      exact lt_foldr_max_iff.mpr
        ⟨p.degree, List.mem_map_of_mem hp, Polynomial.lt_degree_iff.mpr ⟨t, ht, hdegree⟩⟩

end Expression

/-! ## The error of an expression -/

variable {order : ColumnOrder}

variable [Scalar α]

/-- The error of a term that has no coefficient in an ordering: its degree is too high, or its
variable has no column. -/
def Monomial.offence? (m : Monomial α) (order : ColumnOrder) : Option (Error α) :=
  if 1 < m.degree then some (.nonlinearTerm m.degree)
  else (m.bases.find? (·.id ∉ order.ids)).map fun v => .notInOrdering v.id

omit [Scalar α] in
/-- Where every variable has a column, only the degree can be wrong. -/
theorem Monomial.offence?_eq_nonlinear? {m : Monomial α}
    (hbases : ∀ v ∈ m.bases, v.id ∈ order.ids) : m.offence? order = m.nonlinear? := by
  have hnone : m.bases.find? (·.id ∉ order.ids) = none := by simpa using hbases
  rw [offence?, nonlinear?, hnone, Option.map_none]

omit [Scalar α] in
theorem ColumnOrder.failure?_column (id : VariableId) :
    failure? (order.column id : Except (Error α) ℕ) =
      if id ∉ order.ids then some (.notInOrdering id) else none := by
  unfold column
  cases hcol : order.column? id with
  | none =>
    have hid : id ∉ order.ids := fun hid => by
      simpa [hcol] using column?_isSome_iff.mpr hid
    simp [hid]
  | some col =>
    have hid : id ∈ order.ids := column?_isSome_iff.mp (by simp [hcol])
    simp [hid]

/-- A normal term has a coefficient unless it offends. -/
theorem Monomial.failure?_addCoefficient {m : Monomial α} (hm : m.IsNormal) (row : List α) :
    failure? (m.addCoefficient order row) = m.offence? order := by
  have hshape := Factor.degree_le_one_iff hm.factors
  unfold addCoefficient offence?
  split
  · next hnil => simp [degree, bases, hnil]
  · next v hsingle =>
    have hcolumn := failure?_map (fun col => row.modify col (· + m.coefficient))
      (order.column v.id : Except (Error α) ℕ)
    rw [ColumnOrder.failure?_column] at hcolumn
    refine hcolumn.trans ?_
    by_cases hid : v.id ∈ order.ids <;> simp [degree, bases, hsingle, hid]
  · next hnil hsingle =>
    have hdegree : 1 < m.degree := by
      rw [← not_le, degree, hshape]
      rintro (h | ⟨v, h⟩)
      · exact hnil h
      · exact hsingle v h
    simp [hdegree]

theorem Polynomial.failure?_coefficients {p : Polynomial α} (hp : p.IsNormal) :
    failure? (p.coefficients order) = p.terms.findSome? (·.offence? order) :=
  failure?_foldlM (fun row t ht => Monomial.failure?_addCoefficient (hp.terms t ht) row) _

/-- A variable is a term, since its coefficient is not zero. -/
theorem Polynomial.terms_ofVariable (hone : ((1 : α) == 0) = false) (v : Variable) :
    (ofMonomial (.ofVariable v : Monomial α)).terms = [.ofVariable v] := by
  simp [ofMonomial, ofTerms, Monomial.insert, Monomial.ofVariable, bne, hone]

namespace Expression

variable {e : Expression α}

omit [Scalar α] in
/-- The rows of the slots fail as their terms do. -/
theorem failure?_slots {β : Type} {xs : List β} {f : β → Except (Error α) (List α)}
    {g : β → Polynomial α} {error? : Monomial α → Option (Error α)}
    (h : ∀ x ∈ xs, failure? (f x) = (g x).terms.findSome? error?) :
    failure? ((xs.map f).mapM id) = ((xs.map g).flatMap (·.terms)).findSome? error? := by
  rw [failure?_mapM fun _ _ => rfl]
  induction xs with
  | nil => rfl
  | cons x xs ih =>
    obtain ⟨hx, hxs⟩ := List.forall_mem_cons.mp h
    rw [List.map_cons, List.findSome?_cons, id_eq, hx, ih hxs, List.map_cons, List.flatMap_cons,
      List.findSome?_append]
    cases (g x).terms.findSome? error? <;> rfl

/-- **The first term without a coefficient is the only error.** -/
theorem failure?_coefficients_eq (hone : ((1 : α) == 0) = false) (he : e.IsNormal) :
    failure? (e.coefficients order) = e.terms.findSome? (·.offence? order) := by
  have hpolynomial : ∀ p ∈ e.polynomials,
      failure? (p.coefficients order) = p.terms.findSome? (·.offence? order) :=
    fun p hp => Polynomial.failure?_coefficients (isNormal_polynomials hone he p hp)
  have hrows : failure? (e.coefficients order) = failure? ((e.slotCoefficients order).mapM id) := by
    rw [coefficients_eq_mapM]
    exact failure?_map _ _
  rw [hrows, terms]
  cases e with
  | const xs =>
    refine failure?_slots fun x _ => ?_
    rw [failure?_ok, eq_comm, List.findSome?_eq_none_iff]
    intro t ht
    simp [Polynomial.eq_of_mem_ofMonomial ht, Monomial.offence?, Monomial.degree, Monomial.bases,
      Monomial.const]
  | var vs =>
    refine failure?_slots fun v _ => ?_
    have hrow := failure?_map (Matrix.unitRow (α := α) order.width)
      (order.column v.id : Except (Error α) ℕ)
    rw [ColumnOrder.failure?_column] at hrow
    refine hrow.trans ?_
    rw [Polynomial.terms_ofVariable hone]
    by_cases hid : v.id ∈ order.ids <;>
      simp [Monomial.offence?, Monomial.degree, Monomial.bases, Monomial.ofVariable, hid]
  | mono ms => exact failure?_slots fun m hm => hpolynomial _ (List.mem_map_of_mem hm)
  | poly ps =>
    have hslots := failure?_slots (g := id) hpolynomial
    rwa [List.map_id] at hslots

/-- **The first term of a degree above one is the only error**, where every variable has a
column. -/
theorem failure?_coefficients (hone : ((1 : α) == 0) = false) (he : e.IsNormal)
    (hbases : ∀ v ∈ e.bases, v.id ∈ order.ids) :
    failure? (e.coefficients order) = firstNonlinear? e.terms := by
  rw [failure?_coefficients_eq hone he, firstNonlinear?]
  refine findSome?_congr fun t ht => Monomial.offence?_eq_nonlinear? ?_
  exact fun v hv => hbases v (mem_bases_of_mem_terms ht hv)

end Expression

end AlgebraicModel
