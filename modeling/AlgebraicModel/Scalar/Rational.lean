import AlgebraicModel.Scalar

/-!
# Rationals as coefficients

Exact arithmetic: the numbers at which the meaning of a computation is read off.
-/

namespace AlgebraicModel

instance : Scalar Rat where
  zero := 0
  one := 1
  sumStart := 0
  ofInt n := n
  pow x n := x ^ n
  abs := Rat.abs
  isFinite _ := true
  text := toString
  decidableLE := inferInstance
  decidableLT := inferInstance

end AlgebraicModel
