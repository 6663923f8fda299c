import AlgebraicModel.Decimal.Positional
import AlgebraicModel.Expression.Basic
import AlgebraicModel.Relation

/-!
# What can go wrong with an expression

Every error is a cause with the data it needs; its code and its message are functions of it. An
error inside a slot or a term names the place and keeps the cause.

## Main definitions

* `Expression.Operation`: the operations that errors name
* `Expression.Error`: the causes
* `Expression.Error.code`, `message`, `source?`: how a cause is reported
-/

namespace AlgebraicModel.Expression

inductive Operation where
  | plus
  | minus
  | multiply
  | dot
  | compare (relation : Relation)
  | power
  | transpose
  | conversion
  | scalarConstraint
deriving DecidableEq, Repr

def Operation.name : Operation → String
  | plus => "Plus"
  | minus => "Minus"
  | multiply => "Multiply"
  | dot => "Dot"
  | compare .le => "LessEq"
  | compare .ge => "GreaterEq"
  | compare .eq => "Eq"
  | power => "Power"
  | transpose => "Transpose"
  | conversion => "ToExpression"
  | scalarConstraint => "ScalarConstraint"

inductive Error (α : Type) where
  /-- The shapes of two operands do not fit. -/
  | dimension (operation : Operation) (left right : Expression α)
  | invalidVariable (fault : Variable.Fault)
  /-- A slot of a vector has an error. -/
  | element (index : Nat) (cause : Error α)
  /-- A term of a polynomial has an error. -/
  | term (index : Nat) (cause : Error α)
  | indexOutOfRange (index length : Nat)
  /-- The product of two vectors would be a matrix. -/
  | vectorProduct (left right : Kind)
  /-- A matrix that is not a column would be needed. -/
  | matrixResult (operation : Operation) (rows cols : Nat)
  /-- Coefficients were asked of a term of this degree. -/
  | nonlinearTerm (degree : Nat)
  /-- The total degree of a product exceeds `maxDegree`. -/
  | degreeOverflow
  | notInOrdering (id : VariableId)
  | missingAssignment (id : VariableId)
  /-- A vector was given to an operation on scalars. -/
  | nonScalar (operation : Operation) (kind : Kind)
  /-- The sides of a constraint have these lengths. -/
  | unequalSides (lhs rhs : Nat)
deriving BEq, Repr

namespace Error

variable {α : Type}

def code : Error α → String
  | dimension .. => "EXPR_DIMENSION_MISMATCH"
  | invalidVariable .uninitialized => "VARIABLE_UNINITIALIZED"
  | invalidVariable (.invalidBounds ..) => "VARIABLE_INVALID_BOUNDS"
  | element .. => "EXPR_ELEMENT_INVALID"
  | term .. => "EXPR_TERM_INVALID"
  | indexOutOfRange .. => "EXPR_INDEX_OUT_OF_RANGE"
  | vectorProduct .. => "EXPR_VECTOR_PRODUCT"
  | matrixResult .. => "EXPR_MATRIX_RESULT"
  | nonlinearTerm .. => "EXPR_NONLINEAR_TERM"
  | degreeOverflow => "EXPR_DEGREE_OVERFLOW"
  | notInOrdering .. => "EXPR_VARIABLE_NOT_IN_ORDERING"
  | missingAssignment .. => "EXPR_MISSING_ASSIGNMENT"
  | nonScalar .. => "EXPR_NON_SCALAR"
  | unequalSides .. => "CONSTRAINT_INVALID_DIMENSIONS"

/-- The message without the code. An error that reports a place has none of its own. -/
def detail : Error α → String
  | dimension op left right =>
    s!"Cannot perform {op.name} between expression of dimension [{left.length}, 1] " ++
      s!"and expression of dimension [{right.length}, 1]"
  | invalidVariable .uninitialized => "Variable has no ID; create variables with Variable::new()"
  | invalidVariable (.invalidBounds id b) =>
    s!"Variable {id} bounds invalid: lower ({decimalText b.lower}) > " ++
      s!"upper ({decimalText b.upper})"
  | element .. | term .. => ""
  | indexOutOfRange index length =>
    s!"Index {index} is out of range for expression of length {length}"
  | vectorProduct left right =>
    s!"dimension mismatch! Cannot multiply {left.name} with {right.name}; the result would be " ++
      "a matrix. Try transposing one or the other, or use dot()"
  | matrixResult op rows cols =>
    s!"{op.name} would involve a {rows}x{cols} matrix; matrix expressions are not supported"
  | nonlinearTerm degree => s!"Cannot extract linear coefficients from a term of degree {degree}"
  | degreeOverflow => s!"Monomial degree exceeds {maxDegree}"
  | notInOrdering id => s!"Variable {id} is not part of the requested variable ordering"
  | missingAssignment id => s!"No value assigned to variable {id}"
  | nonScalar op kind => s!"{op.name} is only defined for scalar expressions (got {kind.name})"
  | unequalSides lhs rhs =>
    s!"The left hand side's dimension ({lhs}) and the right hand side's dimension ({rhs}) " ++
      "do not match"

/-- The code in brackets and the detail; an error inside a slot or a term is the place followed by
the message of its cause. -/
def message : Error α → String
  | element index cause => s!"element {index} has an issue: {cause.message}"
  | term index cause => s!"term {index} has an issue: {cause.message}"
  | e => s!"[{e.code}] {e.detail}"

/-- The error that this one reports the place of. -/
def source? : Error α → Option (Error α)
  | element _ cause => some cause
  | term _ cause => some cause
  | _ => none

end Error

end AlgebraicModel.Expression
