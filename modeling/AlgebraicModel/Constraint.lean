import AlgebraicModel.Expression.Affine
import AlgebraicModel.Expression.Arithmetic

/-!
# Constraints

Two expressions of equal length and the relation between them. A comparison puts the operand of
the higher family on the left and reverses the relation if that swaps the sides.

## Main definitions

* `Constraint α`: a scalar constraint, or a vector one that holds slot by slot
* `Constraint.scalar?`, `vector?`: constraints from two sides
* `Expression.comparison`: the constraint that compares two operands
* `Constraint.linearParts`: the constraint as rows of a matrix and a right-hand side
-/

namespace AlgebraicModel

open Expression (Error Checked)

/-- Whether the constraint is a vector constraint is recorded apart from the shapes of the sides:
two scalars can be compared as vectors of length one. -/
structure Constraint (α : Type) where
  lhs : Expression α
  relation : Relation
  rhs : Expression α
  isVector : Bool
deriving BEq, Repr

namespace Constraint

variable {α : Type}

/-! ## Construction -/

/-- Two scalars in relation. -/
def scalar? (lhs : Expression α) (relation : Relation) (rhs : Expression α) :
    Except (Error α) (Constraint α) :=
  if lhs.isVector then
    .error (.nonScalar .scalarConstraint lhs.kind)
  else if rhs.isVector then
    .error (.nonScalar .scalarConstraint rhs.kind)
  else
    .ok ⟨lhs, relation, rhs, false⟩

/-- Two sides of equal length in relation, slot by slot. -/
def vector? (lhs : Expression α) (relation : Relation) (rhs : Expression α) :
    Except (Error α) (Constraint α) :=
  if lhs.length = rhs.length then
    .ok ⟨lhs, relation, rhs, true⟩
  else
    .error (.unequalSides lhs.length rhs.length)

/-- Two sides whose lengths are known to agree: a scalar constraint if both are scalars. -/
def ofSides (lhs : Expression α) (relation : Relation) (rhs : Expression α) : Constraint α :=
  ⟨lhs, relation, rhs, lhs.isVector || rhs.isVector⟩

/-! ## Inspection -/

/-- The number of rows that the constraint contributes to a system. -/
def length (c : Constraint α) : Nat :=
  c.lhs.length

/-- Check the left side, the right side, and their lengths. -/
def check (c : Constraint α) : Except (Error α) Unit := do
  c.lhs.check
  c.rhs.check
  if c.lhs.length ≠ c.rhs.length then
    .error (.unequalSides c.lhs.length c.rhs.length)

/-- The variables of both sides, by identity, in the order of their first occurrence. -/
def vars (c : Constraint α) : List Variable :=
  Variable.distinct (c.lhs.bases ++ c.rhs.bases)

/-! ## Rows -/

/-- The constraint as `A * x` in relation to `b`: the coefficients of the left side less those of
the right, and the constants of the right side less those of the left. -/
def linearParts [Scalar α] (c : Constraint α) (order : ColumnOrder) :
    Except (Error α) (Matrix α × List α) := do
  let left ← c.lhs.coefficients order
  let right ← c.rhs.coefficients order
  return (left.sub right, c.rhs.constant.zipWith (· - ·) c.lhs.constant)

end Constraint

/-! ## Comparisons -/

namespace Expression

variable {α : Type} [Scalar α]

/-- The constraint that two operands stand in a relation, the higher family on the left. -/
def comparison (a : Expression α) (relation : Relation) (b : Operand α) :
    Checked α (Constraint α) := do
  let b ← a.checkedOperand b
  checkComparison relation a b
  if a.family < b.family then
    return .ofSides b relation.reverse a
  else
    return .ofSides a relation b

def lessEq (a : Expression α) (b : Operand α) : Checked α (Constraint α) :=
  a.comparison .le b

def greaterEq (a : Expression α) (b : Operand α) : Checked α (Constraint α) :=
  a.comparison .ge b

def equalTo (a : Expression α) (b : Operand α) : Checked α (Constraint α) :=
  a.comparison .eq b

end Expression

end AlgebraicModel
