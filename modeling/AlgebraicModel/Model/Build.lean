import AlgebraicModel.Log.Logged
import AlgebraicModel.Model.Basic
import AlgebraicModel.Model.Event

/-!
# Building models

The operations that change a model. Each of them reads and changes a workspace, may fail, and
records events; what was changed before a failure would stay changed, so the operations check
first.

## Main definitions

* `Build α μ β`: an operation on a workspace
* `Build.addVariable`, `addBinary`, `addVector`, `registerVariable`: variables
* `Build.addConstraint`: constraints
* `Build.setObjective`, `minimize`, `maximize`: the objective
* `Build.nameVariable`, `nameConstraint`, `nameObjective` and the operations on metadata: labels
-/

namespace AlgebraicModel

open Model (Event)

/-- An operation on a workspace. -/
def Build (α μ β : Type) : Type :=
  Workspace α μ → Logged (Event α) (Model.Error α) β × Workspace α μ

namespace Build

variable {α μ β γ : Type}

/-! ## Operations in sequence -/

protected def bind (x : Build α μ β) (f : β → Build α μ γ) : Build α μ γ := fun w =>
  match x w with
  | (⟨events, .ok b⟩, w) =>
    let (answer, w) := f b w
    (⟨events ++ answer.events, answer.result⟩, w)
  | (⟨events, .error e⟩, w) => (⟨events, .error e⟩, w)

instance : Monad (Build α μ) where
  pure b w := (pure b, w)
  bind := Build.bind

instance : MonadLift (Logged (Event α) (Model.Error α)) (Build α μ) where
  monadLift answer w := (answer, w)

instance : MonadLift (Except (Expression.Error α)) (Build α μ) where
  monadLift result w := (.ofExcept (result.mapError .expression), w)

def model : Build α μ (Model α μ) := fun w => (pure w.model, w)

def change (f : Model α μ → Model α μ) : Build α μ Unit := fun w =>
  (pure (), { w with model := f w.model })

/-- Take what is needed from the supply of fresh variables. -/
def draw (take : IdSupply → β × IdSupply) : Build α μ β := fun w =>
  let (b, ids) := take w.ids
  (pure b, { w with ids })

def record (event : Event α) : Build α μ Unit := fun w => (Logged.record event, w)

def fail (e : Model.Error α) : Build α μ β := fun w => (Logged.fail e, w)

/-! ## Variables -/

/-- Put a variable in the next column. -/
def push (v : Variable) : Build α μ Unit :=
  change fun m => { m with vars := m.vars ++ [v] }

/-- Add a fresh variable. -/
def addVariable (integrality : Integrality) (bounds : Bounds) : Build α μ Variable := do
  if !bounds.isValid then
    fail (.invalidBounds bounds)
  let v ← draw (·.variableWith integrality bounds)
  push v
  return v

def addContinuous (bounds : Bounds) : Build α μ Variable :=
  addVariable .continuous bounds

/-- Add a fresh variable that is zero or one. -/
def addBinary : Build α μ Variable := do
  let v ← draw (·.variableWith .binary .unit)
  push v
  return v

/-- Add fresh variables, continuous and unbounded. -/
def addVector (n : Nat) : Build α μ (List Variable) := do
  let vs ← draw (·.vector n)
  vs.forM push
  record (.addedVector n)
  return vs

/-- Adopt a variable. One that is already in the model is left as it is. -/
def registerVariable (v : Variable) : Build α μ Unit := do
  match v.check with
  | .error (.invalidBounds _ bounds) => fail (.invalidBounds bounds)
  | .error fault => fail (.expression (.invalidVariable fault))
  | .ok () => if !(← model).isRegistered v.id then push v

def requireVariable (id : VariableId) : Build α μ Unit := do
  if !(← model).isRegistered id then
    fail (.unknownVariable id)

/-! ## Constraints -/

/-- Record that a constraint was turned away, and fail. -/
def rejectConstraint (cause : Model.Error α) : Build α μ β := do
  record (.rejectedConstraint cause)
  fail cause

/-- The identity after the one given out last. -/
def nextConstraintId : Build α μ ConstraintId := do
  let last := (← model).lastConstraint
  if last = 0xffffffff then
    rejectConstraint .constraintsExhausted
  change fun m => { m with lastConstraint := last + 1 }
  return ⟨last + 1⟩

/-- Add a valid constraint between registered variables. -/
def addConstraint (c : Constraint α) : Build α μ ConstraintId := do
  if let .error cause := c.check then
    rejectConstraint (.expression cause)
  c.vars.forM fun v => requireVariable v.id
  let id ← nextConstraintId
  record (.addedConstraint id c.length c.relation)
  change fun m => { m with constraints := m.constraints ++ [(id, c)] }
  return id

def requireConstraint (id : ConstraintId) : Build α μ Unit := do
  if (← model).constraint? id |>.isNone then
    fail (.unknownConstraint id)

/-! ## The objective -/

/-- Set or replace the objective. A new objective has no name. -/
def setObjective [Scalar α] (direction : Direction) (b : Operand α) : Build α μ Unit := do
  let e ← b.toExpression
  e.check
  if e.isVector then
    fail (.nonScalarObjective e.length)
  if 1 < e.degree then
    fail (.expression (.nonlinearTerm e.degree))
  e.vars.forM fun v => requireVariable v.id
  record (.setObjective direction e.vars.length)
  change fun m => { m with objective? := some ⟨direction, e⟩, objectiveName? := none }

/-- Set the objective of a model that has none. -/
def optimize [Scalar α] (direction : Direction) (b : Operand α) : Build α μ Unit := do
  if (← model).objective?.isSome then
    fail .objectiveAlreadySet
  setObjective direction b

def minimize [Scalar α] (b : Operand α) : Build α μ Unit :=
  optimize .minimize b

def maximize [Scalar α] (b : Operand α) : Build α μ Unit :=
  optimize .maximize b

/-! ## Labels -/

def nameVariable (id : VariableId) (n : String) : Build α μ Unit := do
  requireVariable id
  change fun m => { m with variableLabels := m.variableLabels.setName id n }

def annotateVariable (id : VariableId) (x : μ) : Build α μ Unit := do
  requireVariable id
  change fun m => { m with variableLabels := m.variableLabels.setMetadata id x }

def nameConstraint (id : ConstraintId) (n : String) : Build α μ Unit := do
  requireConstraint id
  change fun m => { m with constraintLabels := m.constraintLabels.setName id n }

def annotateConstraint (id : ConstraintId) (x : μ) : Build α μ Unit := do
  requireConstraint id
  change fun m => { m with constraintLabels := m.constraintLabels.setMetadata id x }

/-- Name the objective, or take its name away. -/
def nameObjective (n : Option String) : Build α μ Unit := do
  if (← model).objective?.isNone then
    fail .noObjective
  change fun m => { m with objectiveName? := n }

end Build

/-- An empty model with a valid configuration. -/
def Model.withConfig {α μ : Type} [Scalar α] (config : Config α) :
    Logged (Model.Event α) (Model.Error α) (Model α μ) := do
  if let .error fault := config.validate then
    Logged.fail (.invalidConfig fault)
  Logged.record (.configured config.level config.tolerance)
  return { config }

end AlgebraicModel
