import Mathlib
import AlgebraicModel.Proofs.Model.Layout
import AlgebraicModel.Scalar.Double

/-!
# Queries on a linear system

The product of a row and a point is made of pairs, and for lists of different lengths there is no
such product: a program that asks for it stops. A point comes from outside and may have any length,
so every query has to look at the length before it multiplies. Whether a row holds is asked behind
such a look, in a system whose rows have an entry for each column, and is always answered. The value
of an objective is asked without one, and is answered for the points with an entry for each column
and for no others.

## Main definitions

* `dot?`: the sum of products, for lists of equal length only
* `LinearSystem.rowSatisfied?`, `satisfiedBy?`: the queries, which stop at a product that does not
  exist

## Main results

* `LinearSystem.rowSatisfied?_eq`, `satisfiedBy?_eq`: on rows of full width they never stop
* `Workspace.queries_answer`: the queries on the system of a reachable model
-/

namespace AlgebraicModel

variable {α : Type} [Scalar α]

/-- The sum of the products of two lists, which have to be of equal length. -/
def dot? (xs ys : List α) : Option α :=
  if xs.length = ys.length then some (dot xs ys) else none

theorem isSome_dot?_iff {xs ys : List α} : (dot? xs ys).isSome ↔ xs.length = ys.length := by
  simp [dot?]

/-- The value of an objective is the product with its coefficients, moved by its offset. -/
theorem LinearObjective.value?_eq (o : LinearObjective α) (x : List α) :
    o.value? x = (dot? o.coefficients x).map (· + o.offset) := by
  rw [value?, dot?]
  split
  · rfl
  · rfl

/-- An objective has a value where that product exists. -/
theorem LinearObjective.exists_value?_iff {o : LinearObjective α} {x : List α} :
    (∃ v, o.value? x = some v) ↔ o.coefficients.length = x.length := by
  rw [← Option.isSome_iff_exists, value?_eq, Option.isSome_map, isSome_dot?_iff]

/-- Asking a list of questions until the answer is no, each of which has one. -/
theorem allM_eq_some {β : Type} {p : β → Option Bool} {q : β → Bool} {xs : List β}
    (h : ∀ x ∈ xs, p x = some (q x)) : xs.allM p = some (xs.all q) := by
  induction xs with
  | nil => rfl
  | cons x xs ih =>
    obtain ⟨hx, hxs⟩ := List.forall_mem_cons.mp h
    rw [List.allM, hx, List.all_cons]
    cases q x with
    | true => exact ih hxs
    | false => rfl

namespace LinearSystem

variable {s : LinearSystem α}

/-- Whether a row holds at a point, unless the product of the two is asked for and does not
exist. -/
def rowSatisfied? (s : LinearSystem α) (row : ℕ) (x : List α) (tolerance : α) : Option Bool :=
  match s.matrix.rows[row]?, s.relations[row]?, s.rhs[row]? with
  | some coefficients, some relation, some b =>
    if x.length = s.numCols then
      (dot? coefficients x).map fun activity => relation.holdsWithin activity b tolerance
    else
      some false
  | _, _, _ => some false

/-- Whether all rows hold at a point. They are asked in order, up to the first that does not. -/
def satisfiedBy? (s : LinearSystem α) (x : List α) (tolerance : α) : Option Bool :=
  (List.range s.numRows).allM fun row => s.rowSatisfied? row x tolerance

/-- **Rows of full width always answer**: a point of another width is turned away before it is
multiplied. -/
theorem rowSatisfied?_eq (hwidth : ∀ r ∈ s.matrix.rows, r.length = s.numCols) (row : ℕ)
    (x : List α) (tolerance : α) :
    s.rowSatisfied? row x tolerance = some (s.rowSatisfied row x tolerance) := by
  unfold rowSatisfied? rowSatisfied
  cases hcoefficients : s.matrix.rows[row]? with
  | none => rfl
  | some coefficients =>
    have hlength : coefficients.length = s.numCols :=
      hwidth coefficients (List.mem_of_getElem? hcoefficients)
    cases s.relations[row]? with
    | none => rfl
    | some relation =>
      cases s.rhs[row]? with
      | none => rfl
      | some b =>
        -- The point has the width of the system, which is that of the row, or is turned away.
        by_cases hx : x.length = s.numCols
        · simp [hx, dot?, hlength]
        · simp [hx]

theorem satisfiedBy?_eq (hwidth : ∀ r ∈ s.matrix.rows, r.length = s.numCols) (x : List α)
    (tolerance : α) : s.satisfiedBy? x tolerance = some (s.satisfiedBy x tolerance) := by
  apply allM_eq_some
  intro row _
  exact rowSatisfied?_eq hwidth row x tolerance

/-- A row that the system does not have holds nowhere, and at a point of another width no row
holds. -/
theorem rowSatisfied_eq_false {row : ℕ} {x : List α}
    (h : s.numRows ≤ row ∨ x.length ≠ s.numCols) (tolerance : α) :
    s.rowSatisfied row x tolerance = false := by
  unfold rowSatisfied
  split
  · next coefficients relation b hcoefficients _ _ =>
    rcases h with hrow | hx
    · have hlt : row < s.numRows := (List.getElem?_eq_some_iff.mp hcoefficients).1
      exact absurd hrow (Nat.not_le.mpr hlt)
    · simp [hx]
  · rfl

end LinearSystem

/-- **The queries on the system of a reachable model.** Whether a row holds and whether all rows
hold is answered for every row number, every tolerance and every point, and the answer is no for a
row that the system does not have and at a point that has not one entry per column. The objective
has a value at a point exactly if the point has one entry per column. -/
theorem Workspace.queries_answer {μ : Type} {w : Workspace α μ} (hw : w.Reachable)
    {s : LinearSystem α} (hs : w.model.linearize.result = .ok s) (x : List α) (tolerance : α) :
    (∀ row, s.rowSatisfied? row x tolerance = some (s.rowSatisfied row x tolerance)) ∧
    s.satisfiedBy? x tolerance = some (s.satisfiedBy x tolerance) ∧
    (∀ row, s.numRows ≤ row ∨ x.length ≠ s.numCols → s.rowSatisfied row x tolerance = false) ∧
    ∀ o, s.objective? = some o → ((∃ v, o.value? x = some v) ↔ x.length = s.numCols) := by
  have hshape := (hw.sound.isLaidOut hs).shape
  have hwidth : ∀ r ∈ s.matrix.rows, r.length = s.numCols := fun r hr =>
    (hshape.row r hr).trans hshape.cols.symm
  refine ⟨fun row => LinearSystem.rowSatisfied?_eq hwidth row x tolerance,
    LinearSystem.satisfiedBy?_eq hwidth x tolerance,
    fun row hrow => LinearSystem.rowSatisfied_eq_false hrow tolerance, fun o ho => ?_⟩
  obtain ⟨-, all, objective?, -, hobjective, rfl⟩ := Model.linearize_eq_ok_iff.mp hs
  have hsome : objective? = some o := ho
  subst hsome
  rw [LinearObjective.exists_value?_iff, hw.sound.length_objectivePart hobjective,
    LinearSystem.numCols_ofRows]
  exact eq_comm

/-- The constraint `x₁ ≤ 6` and the objective five, asked at a point without entries. -/
theorem Workspace.queries_answer_empty_point :
    let x₁ : Variable := ⟨⟨1⟩, .unit, .continuous⟩
    let w : Workspace Float Unit := ({} : Workspace Float Unit).run [.addContinuous .unit,
      .addConstraint ⟨.var (.scalar x₁), .le, .const (.scalar 6), false⟩, .minimize (.number 5)]
    let o : LinearObjective Float := ⟨.minimize, [0], 5⟩
    let s : LinearSystem Float := ⟨⟨1, [[1]]⟩, [6], [.le], [⟨1⟩], some o⟩
    w.Reachable ∧ w.model.linearize.result = .ok s ∧ s.rowSatisfied? 0 [] 0 = some false ∧
      s.rowSatisfied? 1 [4] 0 = some false ∧ ¬ (∃ v, o.value? [] = some v) ∧
      ∃ v, o.value? [4] = some v := by
  intro x₁ w o s
  have hw : w.Reachable := ⟨{}, _, ⟨{}, rfl⟩, rfl⟩
  have hs : w.model.linearize.result = .ok s := eq_ok_of_toOption (by decide +kernel)
  obtain ⟨hempty, -, hnone, hvalue⟩ := queries_answer hw hs [] 0
  obtain ⟨hfour, -, hnone', hvalue'⟩ := queries_answer hw hs [4] 0
  refine ⟨hw, hs, ?_, ?_, ?_, (hvalue' o rfl).mpr rfl⟩
  · rw [hempty 0, hnone 0 (.inr Nat.zero_ne_one)]
  · rw [hfour 1, hnone' 1 (.inl (Nat.le_refl 1))]
  · rw [hvalue o rfl]
    exact Nat.zero_ne_one

end AlgebraicModel
