import AlgebraicModel.Constraint
import AlgebraicModel.LinearSystem
import AlgebraicModel.Model.Labels

/-!
# Models

A model holds variables, constraints between them, and at most one objective. Its variables are
in the order in which they were added, and that order gives the columns of its linear system.

## Main definitions

* `Model α μ`: a model with coefficients in `α` and metadata in `μ`
* `Model.columnOf?`, `getVariable`, `getConstraint`: looking things up
* `Workspace α μ`: a model together with the supply of fresh variables
-/

namespace AlgebraicModel

/-- A scalar expression of degree at most one, and which way to go. -/
structure Objective (α : Type) where
  direction : Direction
  expression : Expression α
deriving BEq, Repr

structure Model (α μ : Type) where
  config : Config α := {}
  vars : List Variable := []
  constraints : List (ConstraintId × Constraint α) := []
  /-- The identity that was given out last, or zero. -/
  lastConstraint : UInt32 := 0
  objective? : Option (Objective α) := none
  objectiveName? : Option String := none
  variableLabels : Labels VariableId μ := {}
  constraintLabels : Labels ConstraintId μ := {}

namespace Model

variable {α μ : Type}

def numVariables (m : Model α μ) : Nat :=
  m.vars.length

def numConstraints (m : Model α μ) : Nat :=
  m.constraints.length

/-- The number of rows that all constraints contribute together. -/
def numRows (m : Model α μ) : Nat :=
  m.constraints.foldr (fun (_, c) rows => c.length + rows) 0

/-- The columns of the linear system. -/
def order (m : Model α μ) : ColumnOrder :=
  .ofVariables m.vars

/-! ## Looking things up -/

/-- The place of a variable in the model, the last one if its identity was added more than once. -/
def columnOf? (m : Model α μ) (id : VariableId) : Option Nat :=
  (m.vars.zipIdx.findRev? (·.1.id = id)).map (·.2)

def isRegistered (m : Model α μ) (id : VariableId) : Bool :=
  m.vars.any (·.id = id)

def getVariable (m : Model α μ) (id : VariableId) : Except (Error α) Variable :=
  match m.columnOf? id >>= (m.vars[·]?) with
  | some v => .ok v
  | none => .error (.unknownVariable id)

def constraint? (m : Model α μ) (id : ConstraintId) : Option (Constraint α) :=
  (m.constraints.find? (·.1 = id)).map (·.2)

def getConstraint (m : Model α μ) (id : ConstraintId) : Except (Error α) (Constraint α) :=
  match m.constraint? id with
  | some c => .ok c
  | none => .error (.unknownConstraint id)

end Model

/-- A model under construction, and the supply that its fresh variables come from. -/
structure Workspace (α μ : Type) where
  model : Model α μ := {}
  ids : IdSupply := {}

end AlgebraicModel
