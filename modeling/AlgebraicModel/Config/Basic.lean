import AlgebraicModel.Scalar

/-!
# Configuration

How a model is lowered to a linear system: whether small coefficients are dropped, and what counts
as small. An option that is not set has its default.

## Main definitions

* `Config α`: the options
* `Config.Fault`: why a configuration is refused
* `Config.validate`: the tolerance has to be a finite number and not negative
-/

namespace AlgebraicModel

/-- What is done to the rows of a system while it is built. -/
inductive Simplification where
  /-- Rows are kept as they are. -/
  | off
  /-- Small coefficients become zero; rows that then hold everywhere are dropped. -/
  | light
deriving DecidableEq, Repr

def Simplification.name : Simplification → String
  | off => "none"
  | light => "light"

structure Config (α : Type) where
  chosenLevel : Option Simplification := none
  chosenTolerance : Option α := none
deriving BEq, Repr

namespace Config

variable {α : Type}

/-- Whether no option is set. -/
def isDefault (c : Config α) : Bool :=
  c.chosenLevel.isNone && c.chosenTolerance.isNone

def level (c : Config α) : Simplification :=
  c.chosenLevel.getD .off

/-- Coefficients of smaller magnitude count as zero. -/
def tolerance [Scalar α] (c : Config α) : α :=
  c.chosenTolerance.getD 1e-12

/-- Why a configuration is refused. -/
inductive Fault (α : Type) where
  /-- The text describes no configuration. -/
  | unreadable
  | invalidTolerance (tolerance : α)
deriving BEq, Repr

/-- Whether a number can be a tolerance: finite and not negative. -/
def isTolerance [Scalar α] (x : α) : Bool :=
  Scalar.isFinite x && decide (0 ≤ x)

def validate [Scalar α] (c : Config α) : Except (Fault α) Unit :=
  match c.chosenTolerance with
  | some x => if isTolerance x then .ok () else .error (.invalidTolerance x)
  | none => .ok ()

end Config

end AlgebraicModel
