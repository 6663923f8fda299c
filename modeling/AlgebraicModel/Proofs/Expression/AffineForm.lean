import Mathlib
import AlgebraicModel.Expression.Affine
import AlgebraicModel.Proofs.Expression.Denotation

/-!
# The affine form of an expression

Coefficients that can be read off an expression are those of its meaning: in every slot the value
is the row of the coefficients times the point, plus the constant. This needs no invariant of the
expression, and a column may stand for a variable that occurs twice in the ordering.

## Main definitions

* `Matrix.apply`: a matrix times a point
* `Monomial.constantPart`: what a term adds to the constant

## Main results

* `Monomial.addCoefficient_eq_ok_iff`: which terms have a coefficient, and where it goes
* `Expression.coefficients_shape`, `length_constant`: a row and a constant for every slot
* `Expression.denote_eq_apply_add_constant`: the affine form
* `Assignment.exists_gives`: a point has the values of a valuation
-/

namespace AlgebraicModel

/-! ## Columns -/

namespace ColumnOrder

variable {α : Type} {order : ColumnOrder} {id : VariableId} {col : ℕ}

theorem column_eq_ok_iff :
    (order.column id : Except (Expression.Error α) ℕ) = .ok col ↔ order.column? id = some col := by
  unfold column
  cases order.column? id <;> simp

theorem getElem?_of_column? (h : order.column? id = some col) : order.ids[col]? = some id := by
  obtain ⟨hlt, hget, -⟩ := List.idxOf?_eq_some_iff.mp h
  rw [List.getElem?_eq_getElem hlt, hget]

/-- No column is the first of two variables. -/
theorem eq_of_column? {id' : VariableId} (h : order.column? id = some col)
    (h' : order.column? id' = some col) : id = id' :=
  Option.some.inj ((getElem?_of_column? h).symm.trans (getElem?_of_column? h'))

theorem lt_width_of_column? (h : order.column? id = some col) : col < order.width := by
  obtain ⟨hlt, -⟩ := List.idxOf?_eq_some_iff.mp h
  exact hlt

theorem column?_isSome_iff : (order.column? id).isSome ↔ id ∈ order.ids :=
  List.isSome_idxOf?

@[simp] theorem width_ofVariables (vs : List Variable) : (ofVariables vs).width = vs.length :=
  List.length_map _

end ColumnOrder

/-! ## Which terms have a coefficient -/

section Rows

variable {α : Type} [Scalar α]

/-- A term of degree zero adds nothing, a variable adds its coefficient to its column, and no other
term has a coefficient. -/
theorem Monomial.addCoefficient_eq_ok_iff {m : Monomial α} {order : ColumnOrder}
    {row row' : List α} :
    m.addCoefficient order row = .ok row' ↔
      m.factors = [] ∧ row' = row ∨
        ∃ v col, m.factors = [⟨v, 1⟩] ∧ order.column? v.id = some col ∧
          row' = row.modify col (· + m.coefficient) := by
  unfold addCoefficient
  split
  · next hm => simp [hm, eq_comm]
  · next v hm =>
    rw [bind_eq_ok_iff]
    constructor
    · rintro ⟨col, hcol, heq⟩
      obtain rfl := Except.ok.inj heq
      exact .inr ⟨v, col, hm, ColumnOrder.column_eq_ok_iff.mp hcol, rfl⟩
    · rintro (⟨hnil, -⟩ | ⟨u, col, hu, hcol, rfl⟩)
      · simp [hm] at hnil
      · obtain rfl : v = u := by simpa [hm] using hu
        exact ⟨col, ColumnOrder.column_eq_ok_iff.mpr hcol, rfl⟩
  · next hnil hsingle =>
    constructor
    · intro h
      cases h
    · rintro (⟨hm, -⟩ | ⟨v, col, hm, -⟩)
      · exact (hnil hm).elim
      · exact (hsingle v hm).elim

theorem Monomial.length_addCoefficient {m : Monomial α} {order : ColumnOrder} {row row' : List α}
    (h : m.addCoefficient order row = .ok row') : row'.length = row.length := by
  rcases addCoefficient_eq_ok_iff.mp h with ⟨-, rfl⟩ | ⟨v, col, -, -, rfl⟩
  · rfl
  · exact List.length_modify _ _ _

theorem Polynomial.length_coefficients {p : Polynomial α} {order : ColumnOrder} {row : List α}
    (h : p.coefficients order = .ok row) : row.length = order.width :=
  foldlM_ok_induction (fun row _ => row.length = order.width) h (by simp)
    fun _ _ _ _ hstep hrow => (Monomial.length_addCoefficient hstep).trans hrow

theorem Variable.length_coefficients {v : Variable} {order : ColumnOrder} {row : List α}
    (h : v.coefficients order = (.ok row : Except (Expression.Error α) _)) :
    row.length = order.width := by
  obtain ⟨col, -, heq⟩ := bind_eq_ok_iff.mp h
  obtain rfl := Except.ok.inj heq
  simp [Matrix.unitRow]

end Rows

/-! ## Shape -/

namespace Expression

variable {α : Type} [Scalar α] {e : Expression α} {order : ColumnOrder} {a : Matrix α}

omit [Scalar α] in
/-- A scalar has one slot. -/
theorem length_of_scalar (h : e.isVector = false) : e.length = 1 := by
  cases e with
  | const s | var s | mono s | poly s =>
    cases s with
    | scalar x => rfl
    | vector xs => cases h

@[simp] theorem length_polynomials (e : Expression α) : e.polynomials.length = e.length := by
  cases e <;> simp [polynomials, length, Slots.length]

@[simp] theorem length_constant (e : Expression α) : e.constant.length = e.length := by
  cases e with
  | const xs => rfl
  | var vs => simp [constant, length]
  | mono ms => simp [constant]
  | poly ps => simp [constant]

/-- The row of every slot, if it has one. -/
def slotCoefficients (e : Expression α) (order : ColumnOrder) :
    List (Except (Error α) (List α)) :=
  match e with
  | const xs => xs.toList.map fun _ => .ok (List.replicate order.width 0)
  | var vs => vs.toList.map (·.coefficients order)
  | mono ms => ms.toList.map fun m => (Polynomial.ofMonomial m).coefficients order
  | poly ps => ps.toList.map (·.coefficients order)

@[simp] theorem length_slotCoefficients (e : Expression α) (order : ColumnOrder) :
    (e.slotCoefficients order).length = e.length := by
  cases e <;> simp [slotCoefficients, length, Slots.length]

/-- The matrix is found row by row. -/
theorem coefficients_eq_mapM (e : Expression α) (order : ColumnOrder) :
    e.coefficients order = do return ⟨order.width, ← (e.slotCoefficients order).mapM id⟩ := by
  cases e with
  | const xs =>
    have hrows : (xs.toList.map fun _ => (.ok (List.replicate order.width 0) :
        Except (Error α) (List α))).mapM id =
          .ok (xs.toList.map fun _ => List.replicate order.width 0) := by
      rw [List.mapM_map]
      exact mapM_eq_ok_map fun _ _ => rfl
    rw [slotCoefficients, hrows, ok_bind]
    simp [coefficients, Matrix.zero, Slots.length, List.map_const']
    rfl
  | var vs => simp [coefficients, slotCoefficients, List.mapM_map]
  | mono ms =>
    simp [coefficients, slotCoefficients, polynomials, List.mapM_map, Function.comp_def]
  | poly ps => simp [coefficients, slotCoefficients, polynomials, List.mapM_map]

theorem coefficients_eq_ok_iff :
    e.coefficients order = .ok a ↔
      a.cols = order.width ∧ e.slotCoefficients order = a.rows.map .ok := by
  have hrows (rows : List (List α)) : (e.slotCoefficients order).mapM id = .ok rows ↔
      e.slotCoefficients order = rows.map .ok := by
    rw [mapM_eq_ok_iff, ← List.forall₂_eq_eq_eq, List.forall₂_map_right_iff]
    rfl
  obtain ⟨cols, rows⟩ := a
  rw [coefficients_eq_mapM, bind_eq_ok_iff]
  constructor
  · rintro ⟨rows', hrows', heq⟩
    cases heq
    exact ⟨rfl, (hrows _).mp hrows'⟩
  · rintro ⟨rfl, hrows'⟩
    exact ⟨rows, (hrows _).mpr hrows', rfl⟩

theorem length_of_mem_slotCoefficients {row : List α}
    (h : (.ok row : Except (Error α) (List α)) ∈ e.slotCoefficients order) :
    row.length = order.width := by
  cases e <;> obtain ⟨x, -, hx⟩ := List.mem_map.mp h
  case const => cases hx; simp
  case var => exact Variable.length_coefficients hx
  case mono => exact Polynomial.length_coefficients hx
  case poly => exact Polynomial.length_coefficients hx

/-- The coefficients have a row for every slot and a column for every entry of the ordering. -/
theorem coefficients_shape (h : e.coefficients order = .ok a) :
    a.cols = order.width ∧ a.rows.length = e.length ∧ ∀ row ∈ a.rows, row.length = order.width := by
  obtain ⟨hcols, hrows⟩ := coefficients_eq_ok_iff.mp h
  refine ⟨hcols, ?_, fun row hrow => ?_⟩
  · simpa using (congrArg List.length hrows).symm
  · exact length_of_mem_slotCoefficients (hrows ▸ List.mem_map_of_mem hrow)

end Expression

/-! ## The affine form -/

/-- The matrix times a point, row by row. -/
def Matrix.apply (a : Matrix ℚ) (x : List ℚ) : List ℚ :=
  a.rows.map (inner · x)

deriving instance DecidableEq for Matrix

theorem inner_replicate_zero (n : ℕ) (x : List ℚ) : inner (List.replicate n 0) x = 0 := by
  induction n generalizing x with
  | zero => simp
  | succ n ih =>
    cases x with
    | nil => simp [inner]
    | cons b x => simp [List.replicate_succ, ih]

/-- Adding to the entry of a column adds as many times its coordinate. -/
theorem inner_modify {row x : List ℚ} {col : ℕ} {b : ℚ} (c : ℚ) (hrow : row.length = x.length)
    (hx : x[col]? = some b) : inner (row.modify col (· + c)) x = inner row x + c * b := by
  induction row generalizing x col with
  | nil =>
    obtain rfl : x = [] := List.length_eq_zero_iff.mp hrow.symm
    simp at hx
  | cons r row ih =>
    obtain _ | ⟨y, x⟩ := x
    · simp at hrow
    · obtain _ | col := col
      · obtain rfl : y = b := by simpa using hx
        simp only [List.modify_zero_cons, inner_cons]
        ring
      · simp only [List.modify_succ_cons, inner_cons,
          ih (by simpa using hrow) (by simpa using hx)]
        ring

/-- The row of a variable picks its coordinate. -/
theorem inner_unitRow {x : List ℚ} {col : ℕ} {b : ℚ} (hx : x[col]? = some b) :
    inner (Matrix.unitRow x.length col) x = b := by
  have hunit : Matrix.unitRow x.length col =
      (List.replicate x.length (0 : ℚ)).modify col (· + 1) := by
    refine List.ext_getElem? fun i => ?_
    rw [Matrix.unitRow, List.getElem?_set, List.getElem?_modify]
    by_cases hi : col = i
    · subst hi
      simp [(List.getElem?_eq_some_iff.mp hx).1]
    · simp [hi]
  rw [hunit, inner_modify 1 (by simp) hx, inner_replicate_zero, zero_add, one_mul]

variable {ρ : Valuation} {order : ColumnOrder}

/-- The part of a monomial that is no coefficient. -/
def Monomial.constantPart (m : Monomial ℚ) : ℚ :=
  if m.isConstant then m.coefficient else 0

theorem Polynomial.constant_eq_sum (p : Polynomial ℚ) :
    p.constant = (p.terms.map (·.constantPart)).sum := by
  rw [constant, total_eq_sum]
  induction p.terms with
  | nil => simp
  | cons t ts ih => by_cases ht : t.isConstant <;> simp [Monomial.constantPart, ht, ih]

theorem coordinate_of_column? (ρ : Valuation) {v : Variable} {col : ℕ}
    (h : order.column? v.id = some col) : (order.ids.map ρ)[col]? = some (ρ v.id) := by
  simp [ColumnOrder.getElem?_of_column? h]

/-- A term adds to the row what it adds to the value, its constant part apart. -/
theorem Monomial.inner_addCoefficient (ρ : Valuation) {m : Monomial ℚ} {row row' : List ℚ}
    (h : m.addCoefficient order row = .ok row') (hrow : row.length = order.width) :
    inner row' (order.ids.map ρ) + m.constantPart = inner row (order.ids.map ρ) + m.denote ρ := by
  rcases addCoefficient_eq_ok_iff.mp h with ⟨hm, rfl⟩ | ⟨v, col, hm, hcol, rfl⟩
  · simp [constantPart, isConstant, denote, Factor.denote, hm]
  · rw [inner_modify _ (by simpa [ColumnOrder.width] using hrow) (coordinate_of_column? ρ hcol)]
    simp [constantPart, isConstant, denote, Factor.denote, hm]

theorem Variable.value_eq_inner_add_zero {v : Variable} {row : List ℚ}
    (h : v.coefficients order = (.ok row : Except (Expression.Error ℚ) _)) :
    ρ v.id = inner row (order.ids.map ρ) + 0 := by
  obtain ⟨col, hcol, heq⟩ := bind_eq_ok_iff.mp h
  obtain rfl := Except.ok.inj heq
  have hcoordinate := coordinate_of_column? ρ (ColumnOrder.column_eq_ok_iff.mp hcol)
  have hrow := inner_unitRow hcoordinate
  rw [List.length_map] at hrow
  rw [add_zero]
  exact hrow.symm

theorem Polynomial.denote_eq_inner_add_constant {p : Polynomial ℚ} {row : List ℚ}
    (h : p.coefficients order = .ok row) :
    p.denote ρ = inner row (order.ids.map ρ) + p.constant := by
  -- The row so far and the terms still to come hold what they held before a term.
  have hfold (ts : List (Monomial ℚ)) : ∀ row₀ : List ℚ, row₀.length = order.width →
      ts.foldlM (fun row t => t.addCoefficient order row) row₀ = .ok row →
        inner row (order.ids.map ρ) + (ts.map (·.constantPart)).sum =
          inner row₀ (order.ids.map ρ) + (ts.map (·.denote ρ)).sum := by
    induction ts with
    | nil =>
      intro row₀ _ h
      obtain rfl := Except.ok.inj h
      simp
    | cons t ts ih =>
      intro row₀ hrow₀ h
      obtain ⟨row₁, hrow₁, hrest⟩ := bind_eq_ok_iff.mp (List.foldlM_cons.symm.trans h)
      have hterm := Monomial.inner_addCoefficient ρ hrow₁ hrow₀
      have hterms := ih row₁ ((Monomial.length_addCoefficient hrow₁).trans hrow₀) hrest
      simp only [List.map_cons, List.sum_cons]
      linarith
  have hsum := hfold p.terms _ (by simp) h
  rw [inner_replicate_zero, zero_add] at hsum
  rw [denote, ← hsum, constant_eq_sum]

/-- Slots whose values are a number of their row and a constant. -/
theorem map_eq_zipWith_add {β ε : Type} {slots : List β} {f : β → Except ε (List ℚ)}
    {rows : List (List ℚ)} {value const : β → ℚ} {g : List ℚ → ℚ}
    (h : slots.map f = rows.map .ok) (hslot : ∀ s row, f s = .ok row → value s = g row + const s) :
    slots.map value = (rows.map g).zipWith (· + ·) (slots.map const) := by
  induction slots generalizing rows with
  | nil => simp
  | cons s slots ih =>
    obtain _ | ⟨row, rows⟩ := rows
    · simp at h
    · obtain ⟨hs, hrest⟩ := List.cons.inj h
      simp [hslot s row hs, ih hrest]

/-- **The affine form**: where coefficients can be read off, the value of every slot is its row of
coefficients times the point, plus its constant. -/
theorem Expression.denote_eq_apply_add_constant {e : Expression ℚ} {a : Matrix ℚ}
    (h : e.coefficients order = .ok a) :
    e.denote ρ = (a.apply (order.ids.map ρ)).zipWith (· + ·) e.constant := by
  obtain ⟨-, hrows⟩ := coefficients_eq_ok_iff.mp h
  cases e with
  | const xs =>
    have hslot (c : ℚ) (row : List ℚ)
        (h : (.ok (List.replicate order.width 0) : Except (Error ℚ) _) = .ok row) :
        id c = inner row (order.ids.map ρ) + id c := by
      cases h
      simp [inner_replicate_zero]
    simpa [denote, constant, Matrix.apply] using map_eq_zipWith_add hrows hslot
  | var vs =>
    simpa [denote, constant, Matrix.apply, Slots.length, List.map_const'] using
      map_eq_zipWith_add hrows fun v row => Variable.value_eq_inner_add_zero
  | mono ms =>
    have hslot (m : Monomial ℚ) (row : List ℚ)
        (h : (Polynomial.ofMonomial m).coefficients order = .ok row) :
        m.denote ρ = inner row (order.ids.map ρ) + (Polynomial.ofMonomial m).constant := by
      rw [← Polynomial.denote_ofMonomial, Polynomial.denote_eq_inner_add_constant h]
    simpa [denote, constant, polynomials, Matrix.apply, Function.comp_def] using
      map_eq_zipWith_add hrows hslot
  | poly ps => exact map_eq_zipWith_add hrows fun p row => Polynomial.denote_eq_inner_add_constant

/-! ## Points -/

/-- A point for an ordering gives its variables the values of a valuation. -/
theorem Assignment.exists_gives {σ : Assignment ℚ} {vs : List Variable} {x : List ℚ}
    (h : σ.point? vs = some x) :
    ∃ ρ : Valuation, σ.Gives ρ vs ∧ x = (ColumnOrder.ofVariables vs).ids.map ρ := by
  have hvalues : List.Forall₂ (fun v y => σ v.id = some y) vs x := mapM_eq_some_iff.mp h
  have hgives : σ.Gives (fun id => (σ id).getD 0) vs := by
    intro v hv
    obtain ⟨y, -, hy⟩ := exists_of_forall₂ hvalues.flip hv
    simp [hy]
  refine ⟨_, hgives, ?_⟩
  rw [(point?_eq_some_iff hgives).mp h, ColumnOrder.ofVariables, List.map_map]
  rfl

theorem Assignment.Gives.of_mem_ids {σ : Assignment ℚ} {ρ : Valuation} {us vs : List Variable}
    (h : σ.Gives ρ vs) (hids : ∀ u ∈ us, u.id ∈ (ColumnOrder.ofVariables vs).ids) :
    σ.Gives ρ us := by
  intro u hu
  obtain ⟨v, hv, hid⟩ := List.mem_map.mp (hids u hu)
  exact hid ▸ h v hv

end AlgebraicModel
