import AlgebraicModel.Config.Basic
import AlgebraicModel.LinearSystem
import AlgebraicModel.Log.Record

/-!
# Events of a model

What the operations on a model record.

## Main definitions

* `Model.Event α`: the events
* `Model.Event.toRecord`: how an event is written
-/

namespace AlgebraicModel.Model

inductive Event (α : Type) where
  | configured (level : Simplification) (tolerance : α)
  | addedVector (length : Nat)
  | rejectedConstraint (cause : Error α)
  | addedConstraint (id : ConstraintId) (rows : Nat) (relation : Relation)
  | setObjective (direction : Direction) (vars : Nat)
  | rejectedRows (id : ConstraintId) (cause : Expression.Error α)
  | linearized (level : Simplification) (rows cols dropped : Nat) (hasObjective : Bool)
deriving BEq, Repr

namespace Event

variable {α : Type}

def toRecord : Event α → Log.Record α
  | configured level tolerance =>
    .ofOperation "model" "with_config" "success" "Created model with configuration"
      [("simplify_level", .text level.name), ("coefficient_tolerance", .number tolerance)]
  | addedVector length =>
    .ofOperation "model" "add_variable_vector" "success" "Added variable vector"
      [("len", .count length)]
  | rejectedConstraint cause =>
    .ofOperation "model" "add_constraint" "error" "Rejected constraint"
      [("error_code", .text cause.code)]
  | addedConstraint id rows relation =>
    .ofOperation "model" "add_constraint" "success" "Added constraint"
      [("constraint_id", .count id.value.toNat), ("rows", .count rows),
        ("sense", .text relation.symbol)]
  | setObjective direction vars =>
    .ofOperation "model" "set_objective" "success" "Set objective function"
      [("sense", .text direction.name), ("variables", .count vars)]
  | rejectedRows id cause =>
    .ofOperation "model" "linearize" "error" "Failed to linearize constraint"
      [("constraint_id", .count id.value.toNat), ("error_code", .text cause.code)]
  | linearized level rows cols dropped hasObjective =>
    .ofOperation "model" "linearize" "success" "Linearized model"
      [("simplify_level", .text level.name), ("rows", .count rows), ("cols", .count cols),
        ("rows_dropped", .count dropped), ("has_objective", .flag hasObjective)]

end Event

end AlgebraicModel.Model
