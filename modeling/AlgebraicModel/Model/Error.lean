import AlgebraicModel.Config.Basic
import AlgebraicModel.Expression.Error

/-!
# What can go wrong with a model

## Main definitions

* `ConstraintId`: the identity of a constraint
* `Model.Error`: the causes
* `Model.Error.code`, `message`, `source?`: how a cause is reported
-/

namespace AlgebraicModel

structure ConstraintId where
  value : UInt32
deriving DecidableEq, Repr, Inhabited

namespace ConstraintId

/-- Zero is the identity of no constraint. -/
def isInitialized (id : ConstraintId) : Bool :=
  id.value != 0

instance : ToString ConstraintId := ⟨fun id => toString id.value⟩

end ConstraintId

inductive Model.Error (α : Type) where
  | noVariables
  | unknownVariable (id : VariableId)
  | invalidBounds (bounds : Bounds)
  | unknownConstraint (id : ConstraintId)
  /-- Every identity of a constraint has been given out. -/
  | constraintsExhausted
  | noObjective
  | objectiveAlreadySet
  | nonScalarObjective (length : Nat)
  | invalidConfig (fault : Config.Fault α)
  | expression (cause : Expression.Error α)
deriving BEq, Repr

namespace Model.Error

variable {α : Type}

def code : Model.Error α → String
  | noVariables => "MODEL_EMPTY"
  | unknownVariable _ => "VARIABLE_UNKNOWN"
  | invalidBounds _ => "VARIABLE_INVALID_BOUNDS"
  | unknownConstraint _ => "CONSTRAINT_INVALID_ID"
  | constraintsExhausted => "CONSTRAINT_IDS_EXHAUSTED"
  | noObjective => "OBJECTIVE_MISSING"
  | objectiveAlreadySet => "OBJECTIVE_ALREADY_SET"
  | nonScalarObjective _ => "OBJECTIVE_NON_SCALAR"
  | invalidConfig _ => "CONFIG_INVALID"
  | expression cause => cause.code

/-- The message without the code. An error of an expression has none of its own. -/
def detail [Scalar α] : Model.Error α → String
  | noVariables => "Model has no variables"
  | unknownVariable id => s!"Variable {id} is not registered with this model"
  | invalidBounds b =>
    s!"Variable bounds invalid: lower ({decimalText b.lower}) > upper ({decimalText b.upper})"
  | unknownConstraint id => s!"Constraint ID {id} does not exist"
  | constraintsExhausted =>
    s!"Model cannot hold more than {(0xffffffff : UInt32)} constraints"
  | noObjective => "Model has no objective defined"
  | objectiveAlreadySet => "Model already has an objective; use set_objective to replace"
  | nonScalarObjective length =>
    s!"Objective must be a scalar expression (got length {length})"
  | invalidConfig .unreadable => "Invalid model configuration: not a description of one"
  | invalidConfig (.invalidTolerance x) =>
    "Invalid model configuration: coefficient_tolerance must be finite and non-negative " ++
      s!"(got {Scalar.text x})"
  | expression _ => ""

/-- The code in brackets and the detail; an error of an expression is reported as it is. -/
def message [Scalar α] : Model.Error α → String
  | expression cause => cause.message
  | e => s!"[{e.code}] {e.detail}"

/-- The error of an expression that this one reports. -/
def source? : Model.Error α → Option (Expression.Error α)
  | expression cause => some cause
  | _ => none

end Model.Error

end AlgebraicModel
