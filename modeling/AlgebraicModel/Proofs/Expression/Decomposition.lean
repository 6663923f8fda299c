import Mathlib
import AlgebraicModel.Proofs.Expression.AffineForm
import AlgebraicModel.Proofs.Expression.Constructed
import AlgebraicModel.Proofs.Variable.Distinct

/-!
# Affine decomposition

Whatever can be constructed and has coefficients in an ordering is `A * x + b` there: every variable
of the expression is in the ordering, so a point for the ordering is all that evaluation needs. The
normal forms enter here: a term that was dropped has no variables left that evaluation could miss.

## Main results

* `Expression.mem_ids_of_coefficients`: the ordering has every variable of the expression
* `Expression.ownCoefficients_eq_coefficients`: the expression's own columns
* `Expression.affine_decomposition`: shape, value and own columns together
-/

namespace AlgebraicModel

/-! ## Variables with a column -/

section Columns

variable {α : Type} [Scalar α] {order : ColumnOrder}

theorem Monomial.mem_ids_of_addCoefficient {m : Monomial α} {row row' : List α}
    (h : m.addCoefficient order row = .ok row') {v : Variable} (hv : v ∈ m.bases) :
    v.id ∈ order.ids := by
  rcases addCoefficient_eq_ok_iff.mp h with ⟨hm, -⟩ | ⟨u, col, hm, hcol, -⟩
  · simp [bases, hm] at hv
  · obtain rfl : v = u := by simpa [bases, hm] using hv
    exact List.mem_of_getElem? (ColumnOrder.getElem?_of_column? hcol)

theorem Polynomial.mem_ids_of_coefficients {p : Polynomial α} {row : List α}
    (h : p.coefficients order = .ok row) {t : Monomial α} (ht : t ∈ p.terms) {v : Variable}
    (hv : v ∈ t.bases) : v.id ∈ order.ids := by
  have hfold (ts : List (Monomial α)) : ∀ row₀ : List α,
      ts.foldlM (fun row t => t.addCoefficient order row) row₀ = .ok row →
        ∀ t ∈ ts, ∀ v ∈ t.bases, v.id ∈ order.ids := by
    induction ts with
    | nil => simp
    | cons s ts ih =>
      intro row₀ h t ht v hv
      obtain ⟨row₁, hrow₁, hrest⟩ := bind_eq_ok_iff.mp (List.foldlM_cons.symm.trans h)
      rcases List.mem_cons.mp ht with rfl | ht
      · exact Monomial.mem_ids_of_addCoefficient hrow₁ hv
      · exact ih row₁ hrest t ht v hv
  exact hfold p.terms _ h t ht v hv

theorem Variable.mem_ids_of_coefficients {v : Variable} {row : List α}
    (h : v.coefficients order = (.ok row : Except (Expression.Error α) _)) : v.id ∈ order.ids := by
  obtain ⟨col, hcol, -⟩ := bind_eq_ok_iff.mp h
  have hcol := ColumnOrder.column_eq_ok_iff.mp hcol
  exact List.mem_of_getElem? (ColumnOrder.getElem?_of_column? hcol)

end Columns

namespace Expression

variable {α : Type} [Scalar α] {e : Expression α} {order : ColumnOrder} {a : Matrix α}

/-- Where coefficients can be read off, every slot has a row. -/
theorem exists_row_of_mem {x : Except (Error α) (List α)} (h : e.coefficients order = .ok a)
    (hx : x ∈ e.slotCoefficients order) : ∃ row, x = .ok row := by
  rw [(coefficients_eq_ok_iff.mp h).2] at hx
  obtain ⟨row, -, hrow⟩ := List.mem_map.mp hx
  exact ⟨row, hrow.symm⟩

/-- The ordering has every variable of a normal form whose coefficients can be read off. -/
theorem mem_ids_of_coefficients (he : e.IsNormal) (h : e.coefficients order = .ok a)
    {v : Variable} (hv : v ∈ e.bases) : v.id ∈ order.ids := by
  cases e with
  | const xs => simp [bases] at hv
  | var vs =>
    obtain ⟨row, hrow⟩ := exists_row_of_mem h (List.mem_map_of_mem hv)
    exact Variable.mem_ids_of_coefficients hrow
  | mono ms =>
    obtain ⟨m, hm, hv⟩ := List.mem_flatMap.mp hv
    obtain ⟨row, hrow⟩ := exists_row_of_mem h (List.mem_map_of_mem hm)
    by_cases hzero : (m.coefficient == 0) = true
    · simp [Monomial.bases, (he m hm).collapsed hzero] at hv
    · have hterms : m ∈ (Polynomial.ofMonomial m).terms := by
        simp [Polynomial.ofMonomial, Polynomial.ofTerms, Monomial.insert, bne, hzero]
      exact Polynomial.mem_ids_of_coefficients hrow hterms hv
  | poly ps =>
    obtain ⟨p, hp, hv⟩ := List.mem_flatMap.mp hv
    obtain ⟨t, ht, hv⟩ := List.mem_flatMap.mp hv
    obtain ⟨row, hrow⟩ := exists_row_of_mem h (List.mem_map_of_mem hp)
    exact Polynomial.mem_ids_of_coefficients hrow ht hv

end Expression

/-! ## Own columns -/

section Own

variable {α : Type} [Scalar α]

/-- Among distinct variables, the row of one of them has its one in the column of that variable. -/
theorem Variable.coefficients_ofVariables {vs : List Variable} {v : Variable}
    (hdistinct : (vs.map (·.id)).Nodup) (hv : v.id ∈ vs.map (·.id)) :
    v.coefficients (.ofVariables vs) =
      (.ok (vs.map fun u => if u.id = v.id then 1 else 0) :
        Except (Expression.Error α) (List α)) := by
  have hsome : ((ColumnOrder.ofVariables vs).column? v.id).isSome :=
    ColumnOrder.column?_isSome_iff.mpr hv
  obtain ⟨col, hcol⟩ := Option.isSome_iff_exists.mp hsome
  have hget : (vs.map (·.id))[col]? = some v.id := ColumnOrder.getElem?_of_column? hcol
  have hrow : Matrix.unitRow vs.length col =
      vs.map fun u => if u.id = v.id then (1 : α) else 0 := by
    refine List.ext_getElem? fun i => ?_
    rw [Matrix.unitRow, List.getElem?_set, List.getElem?_map]
    by_cases hi : i < vs.length
    · -- An identity stands in one column only, so both rows have their one in the same place.
      have hget' : (vs.map (·.id))[i]? = some vs[i].id := by simp [hi]
      have hid : vs[i].id = v.id ↔ col = i := by
        rw [← Option.some_inj, ← hget', ← hget, eq_comm]
        exact List.getElem?_inj (List.getElem?_eq_some_iff.mp hget).1 hdistinct
      by_cases hcol' : col = i <;> simp [hi, hid, hcol']
    · have hcol' : col ≠ i := fun h => hi (by
        simpa [h] using (List.getElem?_eq_some_iff.mp hget).1)
      simp [hi, hcol']
  rw [Variable.coefficients, ColumnOrder.column_eq_ok_iff.mpr hcol, ok_bind,
    ColumnOrder.width_ofVariables, hrow]
  rfl

/-- Without numbers, the own columns are those of the ordering of the own variables. -/
theorem Expression.ownCoefficients_eq_coefficients {e : Expression α} (he : e.family ≠ .const) :
    e.ownCoefficients = e.coefficients (.ofVariables e.vars) := by
  cases e with
  | const xs => exact (he rfl).elim
  | var vs =>
    have hrows : vs.toList.mapM (·.coefficients (.ofVariables (Variable.distinct vs.toList))) =
        (.ok (vs.toList.map fun v => (Variable.distinct vs.toList).map fun u =>
          if u.id = v.id then 1 else 0) : Except (Error α) _) := by
      refine mapM_eq_ok_map fun v hv => ?_
      obtain ⟨u, hu, hid⟩ := Variable.exists_mem_distinct hv
      exact Variable.coefficients_ofVariables (Variable.nodup_distinct _)
        (List.mem_map.mpr ⟨u, hu, hid⟩)
    simp only [ownCoefficients, coefficients, vars, bases, hrows, ok_bind,
      ColumnOrder.width_ofVariables]
    rfl
  | mono ms => rfl
  | poly ps => rfl

end Own

/-! ## The decomposition -/

/-- **Affine decomposition.** Coefficients of a constructed expression in an ordering have a row for
every slot and a column for every entry, there is a constant for every slot, and the expression
evaluates to the matrix times the point, plus the constants. An expression that is no number has the
coefficients of the ordering of its own variables for its own. -/
theorem Expression.affine_decomposition {e : Expression ℚ} (he : e.Constructed) :
    (∀ (wrt : List Variable) (a : Matrix ℚ), e.coefficients (.ofVariables wrt) = .ok a →
      (a.rows.length = e.length ∧ a.cols = wrt.length ∧ ∀ row ∈ a.rows, row.length = wrt.length) ∧
      e.constant.length = e.length ∧
      ∀ (σ : Assignment ℚ) (x : List ℚ), σ.point? wrt = some x →
        e.evaluate σ = .ok ((a.apply x).zipWith (· + ·) e.constant)) ∧
    (e.family ≠ .const → e.ownCoefficients = e.coefficients (.ofVariables e.vars)) := by
  refine ⟨fun wrt a h => ⟨?_, length_constant e, fun σ x hx => ?_⟩, ownCoefficients_eq_coefficients⟩
  · obtain ⟨hcols, hrows, hwidth⟩ := coefficients_shape h
    rw [ColumnOrder.width_ofVariables] at hcols hwidth
    exact ⟨hrows, hcols, hwidth⟩
  · obtain ⟨ρ, hgives, rfl⟩ := Assignment.exists_gives hx
    have hnormal := he.isNormal (by decide)
    have hbases := hgives.of_mem_ids fun v hv => mem_ids_of_coefficients hnormal h hv
    rw [evaluate_eq_denote hbases, denote_eq_apply_add_constant h]

/-- The sum `x₁ + 5`, in an ordering with an unused column and with `x₁` twice. -/
theorem Expression.affine_decomposition_shifted_variable :
    let e : Expression ℚ := poly (.scalar (.ofTerms [.ofVariable ⟨⟨1⟩, {}, .integer⟩, .const 5]))
    let wrt : List Variable := [⟨⟨2⟩, {}, .integer⟩, ⟨⟨1⟩, {}, .integer⟩, ⟨⟨1⟩, {}, .integer⟩]
    let σ : Assignment ℚ := fun id => some (if id = ⟨1⟩ then 3 else 7)
    e.Constructed ∧ e.coefficients (.ofVariables wrt) = .ok ⟨3, [[0, 1, 0]]⟩ ∧
      σ.point? wrt = some [7, 3, 3] ∧ e.evaluate σ = .ok [8] := by
  intro e wrt σ
  have he : e.Constructed := .polynomial fun t ht => by
    rcases List.mem_pair.mp ht with rfl | rfl
    · exact .variableMonomial _
    · exact .constMonomial 5
  have hcoefficients : e.coefficients (.ofVariables wrt) = .ok ⟨3, [[0, 1, 0]]⟩ :=
    eq_ok_of_toOption (by decide +kernel)
  have hpoint : σ.point? wrt = some [7, 3, 3] := by decide +kernel
  have hvalue :
      ((⟨3, [[0, 1, 0]]⟩ : Matrix ℚ).apply [7, 3, 3]).zipWith (· + ·) e.constant = [8] := by
    decide +kernel
  have hdecomposition := ((affine_decomposition he).1 wrt _ hcoefficients).2.2 σ _ hpoint
  exact ⟨he, hcoefficients, hpoint, hvalue ▸ hdecomposition⟩

end AlgebraicModel
