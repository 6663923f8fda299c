import AlgebraicModel.Expression.Error

/-!
# Operands

Values that can stand where an expression is asked for. Every one of them is an expression but a
matrix that is not a column.

## Main definitions

* `Operand α`, `Operand.toExpression`: what an operation accepts, and as which expression
* `Datum α`, `Datum.toExpression?`: a value of any type, read as an expression where possible
-/

namespace AlgebraicModel

open Expression (Error)

inductive Operand (α : Type) where
  | expression (e : Expression α)
  | integer (n : Int)
  | number (x : α)
  | numbers (xs : List α)
  | matrix (a : Matrix α)

namespace Operand

variable {α : Type} [Scalar α]

/-- Read an operand as an expression. -/
def toExpression : Operand α → Except (Error α) (Expression α)
  | expression e => .ok e
  | integer n => .ok (.const (.scalar (Scalar.ofInt n)))
  | number x => .ok (.const (.scalar x))
  | numbers xs => .ok (.const (.vector xs))
  | matrix a =>
    if a.cols = 1 then
      .ok (.const (.vector a.rows.flatten))
    else
      .error (.matrixResult .conversion a.rows.length a.cols)

end Operand

/-- A value of any type: an operand, or something that is none. -/
inductive Datum (α : Type) where
  | operand (b : Operand α)
  | text (s : String)
  | unsigned (n : UInt64)
  | signed (n : Int64)
  | single (x : Float32)
  | flag (b : Bool)

namespace Datum

variable {α : Type} [Scalar α]

/-- The value as an expression, if its type is that of an operand and it can be read as one. -/
def toExpression? : Datum α → Option (Expression α)
  | operand b => b.toExpression.toOption
  | text _ | unsigned _ | signed _ | single _ | flag _ => none

def isExpression (d : Datum α) : Bool :=
  d.toExpression?.isSome

end Datum

end AlgebraicModel
