import AlgebraicModel.Expression.Error
import AlgebraicModel.Log.Logged
import AlgebraicModel.Log.Record

/-!
# Shapes

The slots of an expression, and the rules that decide whether two operands fit. A pair that is
turned away by a rule is recorded, once.

## Main definitions

* `Expression.slot`: one slot of an expression
* `Expression.Rejection`: the record of two operands that do not fit
* `Expression.checkSum`, `checkProduct`, `checkComparison`: the rules
-/

namespace AlgebraicModel.Expression

/-- One slot, as a scalar expression. -/
def slot {α : Type} (e : Expression α) (index : Nat) : Except (Error α) (Expression α) :=
  match e.slot? index with
  | some s => .ok s
  | none => .error (.indexOutOfRange index e.length)

/-! ## Rejections -/

/-- Two operands were turned away by the rule of an operation. -/
structure Rejection where
  operation : Operation
  left : Kind
  right : Kind
  leftLength : Nat
  rightLength : Nat
deriving DecidableEq, Repr

def Rejection.toRecord {α : Type} (r : Rejection) : Log.Record α :=
  .ofOperation "expr" r.operation.name "rejected"
    (if r.operation = .multiply then
      "Vector product would be a matrix"
    else
      "Dimension check failed")
    [("left", .text r.left.name), ("right", .text r.right.name),
      ("left_len", .count r.leftLength), ("right_len", .count r.rightLength)]

/-- A computation on expressions, with the operands that were turned away. -/
abbrev Checked (α β : Type) := Logged Rejection (Error α) β

/-! ## Rules -/

variable {α : Type}

/-- Record that two operands do not fit, and fail. -/
def reject (op : Operation) (left right : Expression α) (e : Error α) : Checked α Unit := do
  Logged.record ⟨op, left.kind, right.kind, left.length, right.length⟩
  Logged.fail e

/-- A sum needs a scalar, which is repeated, or equal lengths. -/
def checkSum (op : Operation) (left right : Expression α) : Checked α Unit :=
  if left.isScalar || right.isScalar || left.length == right.length then
    pure ()
  else
    reject op left right (.dimension op left right)

/-- A product needs an operand of length one; anything else would be a matrix. -/
def checkProduct (left right : Expression α) : Checked α Unit :=
  if left.length == 1 || right.length == 1 then
    pure ()
  else
    reject .multiply left right (.vectorProduct left.kind right.kind)

/-- A comparison needs equal lengths. -/
def checkComparison (r : Relation) (left right : Expression α) : Checked α Unit :=
  if left.length == right.length then
    pure ()
  else
    reject (.compare r) left right (.dimension (.compare r) left right)

end AlgebraicModel.Expression
