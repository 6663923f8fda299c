import AlgebraicModel.Expression.Error

/-!
# Affine coefficients

An expression whose terms have degree at most one is `A * x + b`: `A` has a row for each slot and
a column for each variable of an ordering, `b` an entry for each slot.

## Main definitions

* `ColumnOrder`: an ordering of variables; of a repeated one the first column counts
* `Expression.coefficients`: the matrix `A` in a given ordering
* `Expression.ownCoefficients`: the matrix `A` in the order of the expression's own variables
* `Expression.constant`: the column `b`
-/

namespace AlgebraicModel

open Expression (Error)

/-! ## Orderings of variables -/

/-- A column for each entry, repeated ones included. -/
structure ColumnOrder where
  ids : List VariableId
deriving Repr

namespace ColumnOrder

def ofVariables (vs : List Variable) : ColumnOrder := ⟨vs.map (·.id)⟩

/-- The number of columns. -/
def width (order : ColumnOrder) : Nat :=
  order.ids.length

/-- The first column of a variable. -/
def column? (order : ColumnOrder) (id : VariableId) : Option Nat :=
  order.ids.idxOf? id

def column {α : Type} (order : ColumnOrder) (id : VariableId) : Except (Error α) Nat :=
  match order.column? id with
  | some col => .ok col
  | none => .error (.notInOrdering id)

end ColumnOrder

/-! ## Rows -/

section Rows

variable {α : Type} [Scalar α]

/-- The row of a single variable. -/
def Variable.coefficients (v : Variable) (order : ColumnOrder) : Except (Error α) (List α) :=
  return Matrix.unitRow order.width (← order.column v.id)

/-- Add the coefficient of a term to the column of its variable. A term of degree zero adds
nothing. -/
def Monomial.addCoefficient (m : Monomial α) (order : ColumnOrder) (row : List α) :
    Except (Error α) (List α) :=
  match m.factors with
  | [] => .ok row
  | [⟨v, 1⟩] => return row.modify (← order.column v.id) (· + m.coefficient)
  | _ => .error (.nonlinearTerm m.degree)

def Polynomial.coefficients (p : Polynomial α) (order : ColumnOrder) :
    Except (Error α) (List α) :=
  p.terms.foldlM (fun row t => t.addCoefficient order row) (List.replicate order.width 0)

end Rows

/-! ## Coefficients of expressions -/

namespace Expression

variable {α : Type} [Scalar α]

/-- The coefficients in the columns of `order`, one row for each slot. -/
def coefficients (e : Expression α) (order : ColumnOrder) : Except (Error α) (Matrix α) :=
  match e with
  | const xs => .ok (Matrix.zero xs.length order.width)
  | var vs => return ⟨order.width, ← vs.toList.mapM (·.coefficients order)⟩
  | e => return ⟨order.width, ← e.polynomials.mapM (·.coefficients order)⟩

/-- The coefficients with one column for each variable of the expression. Numbers have none, and
a square block of zeros in their place. -/
def ownCoefficients (e : Expression α) : Except (Error α) (Matrix α) :=
  match e with
  | const xs => .ok (Matrix.zero xs.length xs.length)
  | var vs =>
    let columns := Variable.distinct vs.toList
    .ok ⟨columns.length,
      vs.toList.map fun v => columns.map fun c => if c.id = v.id then 1 else 0⟩
  | e => e.coefficients (.ofVariables e.vars)

/-- The terms of degree zero, slot by slot. -/
def constant : Expression α → List α
  | const xs => xs.toList
  | var vs => List.replicate vs.length 0
  | e => e.polynomials.map (·.constant)

end Expression

end AlgebraicModel
