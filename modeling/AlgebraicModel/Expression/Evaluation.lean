import AlgebraicModel.Expression.Error

/-!
# Values and derivatives

The value of an expression under an assignment, and its partial derivatives. Both work slot by
slot.

## Main definitions

* `Expression.evaluate`: the value of every slot
* `Expression.derivative`: the partial derivative of every slot
-/

namespace AlgebraicModel.Expression

variable {α : Type} [Scalar α]

/-- The values of the slots, or the first variable that has no value. -/
def values (e : Expression α) (σ : Assignment α) : Except VariableId (List α) :=
  match e with
  | const xs => .ok xs.toList
  | var vs => vs.toList.mapM fun v => σ.value v.id
  | mono ms => ms.toList.mapM (·.evaluate σ)
  | poly ps => ps.toList.mapM (·.evaluate σ)

def evaluate (e : Expression α) (σ : Assignment α) : Except (Error α) (List α) :=
  (e.values σ).mapError .missingAssignment

/-- The partial derivative of every slot with respect to the variable of that identity. Numbers
and variables have numbers as derivatives; monomials and polynomials stay in their family. -/
def derivative (e : Expression α) (id : VariableId) : Expression α :=
  match e with
  | const xs => const (xs.map fun _ => 0)
  | var vs => const (vs.map fun v => if v.id = id then 1 else 0)
  | mono ms => mono (ms.map (·.derivative id))
  | poly ps => poly (ps.map (·.derivative id))

end AlgebraicModel.Expression
