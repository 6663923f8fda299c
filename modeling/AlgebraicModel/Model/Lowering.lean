import AlgebraicModel.Log.Logged
import AlgebraicModel.Model.Basic
import AlgebraicModel.Model.Event

/-!
# Lowering models

A model becomes a linear system: the rows of its constraints, one after the other, and its
objective, over the columns of its variables. Light simplification sets small coefficients to
zero and drops the rows that then hold everywhere.

## Main definitions

* `Constraint.rows`: the rows of a constraint
* `Config.simplify`: what a configuration makes of rows
* `Model.linearObjective`, `Model.linearize`: the objective and the system of a model
-/

namespace AlgebraicModel

variable {α : Type} [Scalar α]

/-! ## Rows -/

def Constraint.rows (c : Constraint α) (owner : ConstraintId) (order : ColumnOrder) :
    Except (Expression.Error α) (List (Row α)) := do
  let (a, b) ← c.linearParts order
  return a.rows.zipWith (fun coefficients rhs => ⟨coefficients, c.relation, rhs, owner⟩) b

/-- Set the coefficients of magnitude below the tolerance to zero. -/
def clearSmall (tolerance : α) (coefficients : List α) : List α :=
  coefficients.map fun c => if Scalar.abs c < tolerance then 0 else c

/-- Whether a row says nothing: its coefficients are zero and it holds within the tolerance. -/
def Row.isVacuous (r : Row α) (tolerance : α) : Bool :=
  r.coefficients.all (· == 0) && r.relation.holdsWithin 0 r.rhs tolerance

namespace Config

/-- The coefficients that a configuration keeps. -/
def clear (c : Config α) (coefficients : List α) : List α :=
  match c.level with
  | .off => coefficients
  | .light => clearSmall c.tolerance coefficients

/-- Whether a configuration keeps a row, once its coefficients are cleared. -/
def keeps (c : Config α) (r : Row α) : Bool :=
  match c.level with
  | .off => true
  | .light => !r.isVacuous c.tolerance

/-- The rows that a configuration keeps, with the coefficients it keeps. -/
def simplify (c : Config α) (rows : List (Row α)) : List (Row α) :=
  (rows.map fun r => { r with coefficients := c.clear r.coefficients }).filter c.keeps

end Config

/-! ## Models -/

namespace Model

variable {μ : Type}

/-- The rows of all constraints, before any simplification. The first constraint that has none is
recorded. -/
def rows (m : Model α μ) : Logged (Event α) (Error α) (List (Row α)) := do
  let blocks ← m.constraints.mapM fun (id, c) => do
    match c.rows id m.order with
    | .ok rows => return rows
    | .error cause =>
      Logged.record (.rejectedRows id cause)
      Logged.fail (.expression cause)
  return blocks.flatten

/-- The objective over the columns of the model. -/
def linearObjective (m : Model α μ) : Except (Error α) (LinearObjective α) :=
  match m.objective? with
  | none => .error .noObjective
  | some o =>
    match o.expression.coefficients m.order with
    | .error cause => .error (.expression cause)
    | .ok a =>
      .ok ⟨o.direction, m.config.clear (a.rows.headD []), o.expression.constant.headD 0⟩

/-- The linear system of a model that has a variable. -/
def linearize (m : Model α μ) : Logged (Event α) (Error α) (LinearSystem α) := do
  if m.vars.isEmpty then
    Logged.fail .noVariables
  let all ← m.rows
  let kept := m.config.simplify all
  let objective? ← if m.objective?.isSome then some <$> m.linearObjective else pure none
  Logged.record (.linearized m.config.level kept.length m.numVariables
    (all.length - kept.length) objective?.isSome)
  return .ofRows m.numVariables kept objective?

end Model

end AlgebraicModel
