import Mathlib
import AlgebraicModel.Proofs.Expression.AffineForm

/-!
# Coefficients in a longer ordering

When an ordering gets more entries at its end, a variable that had a column keeps it, even if its
identity is among the new entries, as the first column of an identity counts. So coefficients that
were found before are found again, with a column of zeros for each of the new entries.

## Main definitions

* `ColumnOrder.append`: more entries at the end
* `widenRow`, `Matrix.widen`: more columns of zeros on the right

## Main results

* `ColumnOrder.column?_append`: old columns stay where they are
* `Expression.coefficients_append`: coefficients in a longer ordering
-/

namespace AlgebraicModel

variable {α : Type} [Scalar α] {k : ℕ}

/-! ## More columns -/

/-- A row with `k` more entries, which are zero. -/
def widenRow (k : ℕ) (row : List α) : List α :=
  row ++ List.replicate k 0

theorem widenRow_replicate (n : ℕ) :
    widenRow k (List.replicate n (0 : α)) = List.replicate (n + k) 0 :=
  List.replicate_append_replicate

/-- An entry of the row can be changed before the row gets more entries, or after. -/
theorem modify_widenRow {row : List α} {col : ℕ} (f : α → α) (h : col < row.length) :
    (widenRow k row).modify col f = widenRow k (row.modify col f) := by
  refine List.ext_getElem? fun i => ?_
  simp only [widenRow, List.getElem?_modify, List.getElem?_append, List.length_modify]
  by_cases hi : i < row.length
  · simp [hi]
  · have hne : col ≠ i := by omega
    simp [hi, hne]

namespace Matrix

/-- A matrix with `k` more columns, of zeros, on the right. -/
def widen (k : ℕ) (a : Matrix α) : Matrix α :=
  ⟨a.cols + k, a.rows.map (widenRow k)⟩

theorem unitRow_add {n col : ℕ} (h : col < n) :
    (unitRow (n + k) col : List α) = widenRow k (unitRow n col) := by
  rw [unitRow, unitRow, ← widenRow_replicate, widenRow, List.set_append_left _ _ (by simpa using h),
    widenRow]

/-- The new entries of a difference are `0 - 0`. -/
theorem sub_widen (hsub : (0 : α) - 0 = 0) {a b : Matrix α} {n : ℕ}
    (ha : ∀ row ∈ a.rows, row.length = n) (hb : ∀ row ∈ b.rows, row.length = n) :
    (a.widen k).sub (b.widen k) = (a.sub b).widen k := by
  have hrow {r s : List α} (hr : r.length = n) (hs : s.length = n) :
      (widenRow k r).zipWith (· - ·) (widenRow k s) = widenRow k (r.zipWith (· - ·) s) := by
    rw [widenRow, widenRow, List.zipWith_append (hr.trans hs.symm), List.zipWith_replicate, hsub,
      min_self, widenRow]
  simp only [widen, sub, List.zipWith_map, List.map_zipWith]
  congr 1
  refine List.ext_getElem (by simp) fun i hi hi' => ?_
  rw [List.getElem_zipWith, List.getElem_zipWith]
  exact hrow (ha _ (List.getElem_mem _)) (hb _ (List.getElem_mem _))

end Matrix

/-! ## More entries -/

namespace ColumnOrder

/-- An ordering with more entries at its end. -/
def append (order : ColumnOrder) (vs : List Variable) : ColumnOrder :=
  ⟨order.ids ++ vs.map (·.id)⟩

variable {order : ColumnOrder} {id : VariableId} {col : ℕ}

@[simp] theorem width_append (order : ColumnOrder) (vs : List Variable) :
    (order.append vs).width = order.width + vs.length := by
  simp [append, width]

theorem ofVariables_append (us vs : List Variable) :
    ofVariables (us ++ vs) = (ofVariables us).append vs := by
  simp [ofVariables, append]

/-- **A new entry takes no column from an old one**, whatever its identity. -/
theorem column?_append (h : order.column? id = some col) (vs : List Variable) :
    (order.append vs).column? id = some col := by
  obtain ⟨hlt, hget, hfirst⟩ := List.idxOf?_eq_some_iff.mp h
  refine List.idxOf?_eq_some_iff.mpr ⟨?_, ?_, ?_⟩
  · simp only [append, List.length_append]
    omega
  · simp only [append, List.getElem_append_left hlt, hget]
  · intro j hj
    simp only [append, List.getElem_append_left (hj.trans hlt)]
    exact hfirst j hj

end ColumnOrder

/-! ## Coefficients -/

variable {order : ColumnOrder} {row row' : List α}

theorem Variable.coefficients_append {v : Variable}
    (h : v.coefficients order = (.ok row : Except (Expression.Error α) _)) (vs : List Variable) :
    v.coefficients (order.append vs) =
      (.ok (widenRow vs.length row) : Except (Expression.Error α) _) := by
  obtain ⟨col, hcol, heq⟩ := bind_eq_ok_iff.mp h
  obtain rfl := Except.ok.inj heq
  have hcol := ColumnOrder.column_eq_ok_iff.mp hcol
  refine bind_eq_ok_iff.mpr
    ⟨col, ColumnOrder.column_eq_ok_iff.mpr (ColumnOrder.column?_append hcol vs), ?_⟩
  rw [ColumnOrder.width_append, Matrix.unitRow_add (ColumnOrder.lt_width_of_column? hcol)]
  rfl

theorem Monomial.addCoefficient_append {m : Monomial α} (h : m.addCoefficient order row = .ok row')
    (hrow : row.length = order.width) (vs : List Variable) :
    m.addCoefficient (order.append vs) (widenRow vs.length row) =
      .ok (widenRow vs.length row') := by
  rw [addCoefficient_eq_ok_iff]
  rcases addCoefficient_eq_ok_iff.mp h with ⟨hm, rfl⟩ | ⟨v, col, hm, hcol, rfl⟩
  · exact .inl ⟨hm, rfl⟩
  · have hlt : col < row.length := hrow ▸ ColumnOrder.lt_width_of_column? hcol
    exact .inr ⟨v, col, hm, ColumnOrder.column?_append hcol vs, (modify_widenRow _ hlt).symm⟩

theorem Polynomial.coefficients_append {p : Polynomial α} (h : p.coefficients order = .ok row)
    (vs : List Variable) :
    p.coefficients (order.append vs) = .ok (widenRow vs.length row) := by
  -- Term by term: the row so far, with more entries, is the row so far in the longer ordering.
  have hfold (ts : List (Monomial α)) : ∀ row₀ : List α, row₀.length = order.width →
      ts.foldlM (fun row t => t.addCoefficient order row) row₀ = .ok row →
      ts.foldlM (fun row t => t.addCoefficient (order.append vs) row) (widenRow vs.length row₀) =
        .ok (widenRow vs.length row) := by
    induction ts with
    | nil =>
      intro row₀ _ h
      obtain rfl := Except.ok.inj h
      rfl
    | cons t ts ih =>
      intro row₀ hrow₀ h
      obtain ⟨row₁, hrow₁, hrest⟩ := bind_eq_ok_iff.mp (List.foldlM_cons.symm.trans h)
      rw [List.foldlM_cons, Monomial.addCoefficient_append hrow₁ hrow₀ vs, ok_bind]
      exact ih row₁ ((Monomial.length_addCoefficient hrow₁).trans hrow₀) hrest
  have hrow := hfold p.terms _ (by simp) h
  rw [widenRow_replicate, ← ColumnOrder.width_append] at hrow
  exact hrow

namespace Expression

/-- Rows that are found one by one are found again, with more entries. -/
theorem map_eq_map_widenRow {β ε : Type} {slots : List β} {f g : β → Except ε (List α)}
    {rows : List (List α)} (h : slots.map f = rows.map .ok)
    (hslot : ∀ s row, f s = .ok row → g s = .ok (widenRow k row)) :
    slots.map g = (rows.map (widenRow k)).map .ok := by
  induction slots generalizing rows with
  | nil =>
    obtain rfl : rows = [] := by simpa using h.symm
    rfl
  | cons s slots ih =>
    obtain _ | ⟨row, rows⟩ := rows
    · simp at h
    · obtain ⟨hs, hrest⟩ := List.cons.inj h
      rw [List.map_cons, hslot s row hs, ih hrest]
      rfl

/-- **Coefficients in a longer ordering** are the coefficients, with a column of zeros for each of
the new entries. -/
theorem coefficients_append {e : Expression α} {a : Matrix α}
    (h : e.coefficients order = .ok a) (vs : List Variable) :
    e.coefficients (order.append vs) = .ok (a.widen vs.length) := by
  obtain ⟨hcols, hrows⟩ := coefficients_eq_ok_iff.mp h
  rw [coefficients_eq_ok_iff]
  refine ⟨by rw [Matrix.widen, hcols, ColumnOrder.width_append], ?_⟩
  cases e with
  | const xs =>
    refine map_eq_map_widenRow hrows fun x row hrow => ?_
    obtain rfl := Except.ok.inj hrow
    rw [widenRow_replicate, ColumnOrder.width_append]
  | var us => exact map_eq_map_widenRow hrows fun v row hrow => v.coefficients_append hrow vs
  | mono ms =>
    exact map_eq_map_widenRow hrows fun m row hrow => Polynomial.coefficients_append hrow vs
  | poly ps =>
    exact map_eq_map_widenRow hrows fun p row hrow => Polynomial.coefficients_append hrow vs

end Expression

end AlgebraicModel
