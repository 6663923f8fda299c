import AlgebraicModel.Matrix
import AlgebraicModel.Model.Error
import AlgebraicModel.Relation

/-!
# Linear systems

The rows `A * x` in relation to `b`, each with the constraint it came from, and an objective
`c * x + offset`. A system can be put together by hand, and then its lists need not have equal
lengths.

## Main definitions

* `Row α`: one row of a system
* `LinearObjective α`, `LinearObjective.value?`: an objective and its value at a point
* `LinearSystem α`, `LinearSystem.ofRows`: a system, and the system of a list of rows
* `LinearSystem.rowSatisfied`, `satisfiedBy`: whether rows hold at a point, within a tolerance
-/

namespace AlgebraicModel

inductive Direction where
  | minimize
  | maximize
deriving DecidableEq, Repr

def Direction.name : Direction → String
  | minimize => "minimize"
  | maximize => "maximize"

/-- One row: its coefficients stand in the relation to the right-hand side. -/
structure Row (α : Type) where
  coefficients : List α
  relation : Relation
  rhs : α
  owner : ConstraintId
deriving BEq, Repr

structure LinearObjective (α : Type) where
  direction : Direction
  coefficients : List α
  offset : α
deriving BEq, Repr

structure LinearSystem (α : Type) where
  matrix : Matrix α
  rhs : List α
  relations : List Relation
  /-- The constraint that each row came from. -/
  owners : List ConstraintId
  objective? : Option (LinearObjective α)
deriving BEq, Repr

variable {α : Type}

/-- The value at a point, which needs an entry for each coefficient. -/
def LinearObjective.value? [Scalar α] (o : LinearObjective α) (x : List α) : Option α :=
  if o.coefficients.length = x.length then some (dot o.coefficients x + o.offset) else none

namespace LinearSystem

def ofRows (cols : Nat) (rows : List (Row α)) (objective? : Option (LinearObjective α)) :
    LinearSystem α where
  matrix := ⟨cols, rows.map (·.coefficients)⟩
  rhs := rows.map (·.rhs)
  relations := rows.map (·.relation)
  owners := rows.map (·.owner)
  objective?

def numRows (s : LinearSystem α) : Nat :=
  s.matrix.rows.length

def numCols (s : LinearSystem α) : Nat :=
  s.matrix.cols

/-- The rows that came from a constraint, in order. -/
def rowsOf (s : LinearSystem α) (id : ConstraintId) : List Nat :=
  (s.owners.zipIdx.filter (·.1 = id)).map (·.2)

/-- Whether a row holds at a point. A row that the system does not have holds nowhere, and at a
point that has not one entry per column no row holds. -/
def rowSatisfied [Scalar α] (s : LinearSystem α) (row : Nat) (x : List α) (tolerance : α) :
    Bool :=
  match s.matrix.rows[row]?, s.relations[row]?, s.rhs[row]? with
  | some coefficients, some relation, some b =>
    x.length = s.numCols && relation.holdsWithin (dot coefficients x) b tolerance
  | _, _, _ => false

def satisfiedBy [Scalar α] (s : LinearSystem α) (x : List α) (tolerance : α) : Bool :=
  (List.range s.numRows).all fun row => s.rowSatisfied row x tolerance

end LinearSystem

end AlgebraicModel
