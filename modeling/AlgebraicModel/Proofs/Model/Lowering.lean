import Mathlib
import AlgebraicModel.Model.Lowering
import AlgebraicModel.Proofs.Expression.AffineForm
import AlgebraicModel.Proofs.Log.Answer

/-!
# The rows of a lowered model

Lowering puts the rows of the constraints one after the other. Every constraint contributes a block
with one row for each of its slots, and as constraints have different identities, the rows that
carry an identity are the block of its constraint.

## Main definitions

* `Constraint.block`: the rows of a constraint, from the coefficients of its sides
* `Model.blocks`, `Model.objectivePart`: the blocks of a model, and its objective over the columns

## Main results

* `Model.result_linearize`, `events_linearize`: the answer of lowering, and its record
* `Model.result_rows_eq_ok_iff`: the rows of a model, block by block
* `LinearSystem.map_rowsOf`: the rows of an identity are found in order
* `filter_flatten_of_forall₂`: the rows of an identity are the block of its constraint
-/

namespace AlgebraicModel

variable {α μ : Type}

/-! ## The rows of an identity -/

namespace LinearSystem

@[simp] theorem numRows_ofRows (cols : ℕ) (rows : List (Row α))
    (objective? : Option (LinearObjective α)) :
    (ofRows cols rows objective?).numRows = rows.length := by
  simp [ofRows, numRows]

@[simp] theorem numCols_ofRows (cols : ℕ) (rows : List (Row α))
    (objective? : Option (LinearObjective α)) : (ofRows cols rows objective?).numCols = cols := rfl

/-- The rows that carry an identity are found in order. -/
theorem map_rowsOf (cols : ℕ) (rows : List (Row α)) (objective? : Option (LinearObjective α))
    (id : ConstraintId) :
    ((ofRows cols rows objective?).rowsOf id).map (rows[·]?) =
      (rows.filter (·.owner = id)).map some := by
  have hfilter : rows.filter (·.owner = id) =
      (rows.zipIdx.filter (·.1.owner = id)).map (·.1) := by
    conv_lhs => rw [← List.zipIdx_map_fst 0 rows, List.filter_map]
    rfl
  rw [hfilter, rowsOf, ofRows, List.map_map, List.map_map, List.zipIdx_map, List.filter_map,
    List.map_map]
  refine List.map_congr_left fun q hq => ?_
  exact List.mem_zipIdx_iff_getElem?.mp (List.mem_filter.mp hq).1

end LinearSystem

/-- Among blocks with different owners, the rows of an owner are its block. -/
theorem filter_flatten_of_forall₂ {r : ConstraintId × Constraint α → List (Row α) → Prop}
    {constraints : List (ConstraintId × Constraint α)} {blocks : List (List (Row α))}
    (h : List.Forall₂ r constraints blocks)
    (howner : ∀ p block, r p block → ∀ row ∈ block, row.owner = p.1)
    (hdistinct : (constraints.map (·.1)).Nodup) {p : ConstraintId × Constraint α}
    (hp : p ∈ constraints) : r p (blocks.flatten.filter (·.owner = p.1)) := by
  induction h with
  | nil => simp at hp
  | @cons q block constraints blocks hq hrest ih =>
    obtain ⟨hnew, hdistinct⟩ := List.nodup_cons.mp hdistinct
    rw [List.flatten_cons, List.filter_append]
    rcases List.mem_cons.mp hp with rfl | hp
    · have hblock : block.filter (·.owner = p.1) = block := by
        simpa using howner p block hq
      have hothers : blocks.flatten.filter (·.owner = p.1) = [] := by
        refine List.filter_eq_nil_iff.mpr fun row hrow => ?_
        obtain ⟨other, hother, hrow⟩ := List.mem_flatten.mp hrow
        obtain ⟨q, hq, hr⟩ := exists_of_forall₂ hrest hother
        rw [howner q other hr row hrow]
        simpa using fun hid : q.1 = p.1 => hnew (List.mem_map.mpr ⟨q, hq, hid⟩)
      rwa [hblock, hothers, List.append_nil]
    · have hblock : block.filter (·.owner = p.1) = [] := by
        refine List.filter_eq_nil_iff.mpr fun row hrow => ?_
        rw [howner q block hq row hrow]
        simpa using fun hid : q.1 = p.1 => hnew (List.mem_map.mpr ⟨p, hp, hid.symm⟩)
      rw [hblock, List.nil_append]
      exact ih hdistinct hp

variable [Scalar α]

/-! ## The block of a constraint -/

namespace Constraint

variable {c : Constraint α} {owner : ConstraintId} {order : ColumnOrder}

/-- The rows of a constraint: the coefficients of the left side less those of the right, and the
constants of the right side less those of the left. -/
def block (c : Constraint α) (owner : ConstraintId) (left right : Matrix α) : List (Row α) :=
  (left.sub right).rows.zipWith (fun coefficients rhs => ⟨coefficients, c.relation, rhs, owner⟩)
    (c.rhs.constant.zipWith (· - ·) c.lhs.constant)

theorem rows_eq_ok_iff {rows : List (Row α)} :
    c.rows owner order = .ok rows ↔ ∃ left right, c.lhs.coefficients order = .ok left ∧
      c.rhs.coefficients order = .ok right ∧ rows = c.block owner left right := by
  simp [Constraint.rows, linearParts, bind_eq_ok_iff, map_eq_ok_iff, block, eq_comm (a := rows)]

/-- A row for each slot, if the sides have equal lengths. -/
theorem length_block {left right : Matrix α} (hleft : c.lhs.coefficients order = .ok left)
    (hright : c.rhs.coefficients order = .ok right) (hsides : c.lhs.length = c.rhs.length) :
    (c.block owner left right).length = c.length := by
  obtain ⟨-, hleft, -⟩ := Expression.coefficients_shape hleft
  obtain ⟨-, hright, -⟩ := Expression.coefficients_shape hright
  simp [block, Matrix.sub, hleft, hright, length, hsides]

/-- A row carries the identity and the relation of its constraint. -/
theorem of_mem_block {left right : Matrix α} {r : Row α} (hr : r ∈ c.block owner left right) :
    r.owner = owner ∧ r.relation = c.relation ∧ r.coefficients ∈ (left.sub right).rows := by
  obtain ⟨i, hi⟩ := List.mem_iff_getElem?.mp hr
  obtain ⟨coefficients, b, hcoefficients, -, rfl⟩ := List.getElem?_zipWith_eq_some.mp hi
  exact ⟨rfl, rfl, List.mem_of_getElem? hcoefficients⟩

theorem owner_of_mem_rows {rows : List (Row α)} (h : c.rows owner order = .ok rows) {r : Row α}
    (hr : r ∈ rows) : r.owner = owner := by
  obtain ⟨left, right, -, -, rfl⟩ := rows_eq_ok_iff.mp h
  exact (of_mem_block hr).1

end Constraint

/-- Without simplification, rows are kept as they are. -/
theorem Config.simplify_of_off {c : Config α} (h : c.level = .off) (rows : List (Row α)) :
    c.simplify rows = rows := by
  have hkeeps : c.keeps = fun _ => true := funext fun r => by simp [keeps, h]
  simp [simplify, clear, h, hkeeps]

/-! ## The answer of lowering -/

namespace Model

variable {m : Model α μ}

/-- The rows of every constraint, or the first error. -/
def blocks (m : Model α μ) : Except (Error α) (List (List (Row α))) :=
  m.constraints.mapM fun p => (p.2.rows p.1 m.order).mapError .expression

/-- The objective over the columns, if the model has one. -/
def objectivePart (m : Model α μ) : Except (Error α) (Option (LinearObjective α)) :=
  if m.objective?.isSome then some <$> m.linearObjective else .ok none

theorem result_rows (m : Model α μ) : m.rows.result = List.flatten <$> m.blocks := by
  simp only [rows, Logged.result_bind, Logged.result_mapM, Logged.result_pure, blocks]
  rw [map_eq_pure_bind]
  refine congrArg (· >>= _) (congrArg (m.constraints.mapM ·) (funext fun p => ?_))
  cases p.2.rows p.1 m.order <;> rfl

/-- Only failures record anything while the rows are found. -/
theorem events_rows {all : List (Row α)} (h : m.rows.result = .ok all) : m.rows.events = [] := by
  rw [rows, Logged.result_bind] at h
  obtain ⟨blocks, hblocks, -⟩ := bind_eq_ok_iff.mp h
  rw [rows, Logged.events_bind hblocks, Logged.events_mapM_eq_nil ?_ hblocks]
  · rfl
  · intro p _ block hblock
    cases hrows : p.2.rows p.1 m.order with
    | ok rows => simp [hrows]
    | error cause => simp [hrows] at hblock

theorem result_linearize (m : Model α μ) :
    m.linearize.result =
      if m.vars.isEmpty then .error .noVariables
      else do
        let all ← m.rows.result
        let objective? ← m.objectivePart
        return .ofRows m.numVariables (m.config.simplify all) objective? := by
  by_cases hvars : m.vars.isEmpty
  · simp [linearize, hvars]
  · simp only [linearize, hvars, Logged.result_bind, objectivePart, if_false, Bool.false_eq_true]
    refine congrArg (m.rows.result >>= ·) (funext fun all => ?_)
    by_cases hobjective : m.objective?.isSome
    · cases m.linearObjective <;> simp [hobjective]
    · simp [hobjective]

theorem linearize_eq_ok_iff {s : LinearSystem α} :
    m.linearize.result = .ok s ↔ m.vars ≠ [] ∧ ∃ all objective?, m.rows.result = .ok all ∧
      m.objectivePart = .ok objective? ∧
        s = .ofRows m.numVariables (m.config.simplify all) objective? := by
  rw [result_linearize]
  by_cases hvars : m.vars = []
  · simp [hvars]
  · simp [hvars, bind_eq_ok_iff, map_eq_ok_iff, eq_comm (a := s)]

/-- A successful lowering records its size, and how many rows it left out. -/
theorem events_linearize {s : LinearSystem α} (h : m.linearize.result = .ok s) :
    ∃ all, m.rows.result = .ok all ∧ s.numRows = (m.config.simplify all).length ∧
      m.linearize.events =
        [.linearized m.config.level s.numRows s.numCols (all.length - s.numRows)
          s.objective?.isSome] := by
  obtain ⟨hvars, all, objective?, hall, hobjective, rfl⟩ := linearize_eq_ok_iff.mp h
  refine ⟨all, hall, by simp, ?_⟩
  have hnonempty : m.vars.isEmpty = false := by simpa using hvars
  simp only [linearize, hnonempty, if_false, Bool.false_eq_true]
  rw [Logged.events_bind hall, events_rows hall]
  by_cases hsome : m.objective?.isSome
  · simp only [objectivePart, hsome, if_true] at hobjective
    obtain ⟨o, ho, rfl⟩ := map_eq_ok_iff.mp hobjective
    simp [hsome, ho]
    rfl
  · obtain rfl : none = objective? := by simpa [objectivePart, hsome] using hobjective
    simp [hsome]
    rfl

theorem blocks_eq_ok_iff {blocks : List (List (Row α))} :
    m.blocks = .ok blocks ↔
      List.Forall₂ (fun p block => p.2.rows p.1 m.order = .ok block) m.constraints blocks := by
  simp [Model.blocks, mapM_eq_ok_iff, mapError_eq_ok_iff]

/-- The rows of a model are those of its constraints, one block after the other. -/
theorem result_rows_eq_ok_iff {all : List (Row α)} :
    m.rows.result = .ok all ↔ ∃ blocks, all = blocks.flatten ∧
      List.Forall₂ (fun p block => p.2.rows p.1 m.order = .ok block) m.constraints blocks := by
  simp only [result_rows, map_eq_ok_iff, blocks_eq_ok_iff, eq_comm (b := all), and_comm]

end Model

end AlgebraicModel
