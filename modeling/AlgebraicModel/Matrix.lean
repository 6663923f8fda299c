import AlgebraicModel.Scalar

/-!
# Matrices

A matrix is its rows and the number of its columns, which a matrix without rows has too.

## Main definitions

* `Matrix α`: rows of equal length
* `Matrix.zero`, `Matrix.sub`: the matrices and operations that coefficients need
* `Matrix.unitRow`: a one in one column
-/

namespace AlgebraicModel

structure Matrix (α : Type) where
  cols : Nat
  rows : List (List α)
deriving BEq, Repr

namespace Matrix

variable {α : Type} [Scalar α]

def zero (rows cols : Nat) : Matrix α :=
  ⟨cols, List.replicate rows (List.replicate cols 0)⟩

/-- The row of length `cols` with a one in column `col` and zeros elsewhere. -/
def unitRow (cols col : Nat) : List α :=
  (List.replicate cols 0).set col 1

/-- The difference entry by entry. -/
def sub (a b : Matrix α) : Matrix α :=
  ⟨a.cols, a.rows.zipWith (fun r s => r.zipWith (· - ·) s) b.rows⟩

end Matrix

end AlgebraicModel
