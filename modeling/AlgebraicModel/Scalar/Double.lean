import AlgebraicModel.Scalar
import AlgebraicModel.Decimal.Positional

/-!
# Doubles as coefficients

A sum of doubles starts from `-0.0`, the only double that changes no other when added to it.
Powers multiply by repeated squaring up to the greatest 32-bit signed exponent and leave longer
ones to the elementary power function.
-/

namespace AlgebraicModel

instance : Scalar Float where
  sumStart := -0.0
  ofInt := Float.ofInt
  pow x n := if n < Nat.pow 2 31 then powBySquaring x n else x.pow (Float.ofNat n)
  abs := Float.abs
  isFinite := Float.isFinite
  text := decimalText
  decidableLE := inferInstance
  decidableLT := inferInstance

end AlgebraicModel
