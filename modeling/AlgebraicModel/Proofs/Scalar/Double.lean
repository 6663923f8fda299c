import Mathlib
import AlgebraicModel.Scalar.Double

/-!
# Comparing doubles

Two doubles compare the other way round once they are swapped, and not at all if one of them is not
a number. Equality of doubles is therefore symmetric, though it is not reflexive.

## Main results

* `Double.compare_swap`: swapping two doubles swaps their order
* `Double.beq_comm`: equality of doubles is symmetric
-/

namespace AlgebraicModel.Double

open Float.Model (UnpackedFloat)

/-- Doubles of one sign are compared by their exponents, then by their mantissas. -/
theorem swap_then_compare (d e : ℤ) (m n : ℕ) :
    ((compare d e).then (compare m n)).swap = (compare e d).then (compare n m) := by
  rw [Ordering.swap_then, ← Std.OrientedCmp.eq_swap, ← Std.OrientedCmp.eq_swap]

theorem compare_swap (x y : UnpackedFloat) : (x.compare y).map Ordering.swap = y.compare x := by
  -- Every pair of classes but two finite doubles of one sign is compared without their digits.
  rcases x with (_ | _) | _ | (_ | _) | ⟨_ | _, m, d, _⟩ <;>
    rcases y with (_ | _) | _ | (_ | _) | ⟨_ | _, n, e, _⟩ <;> try rfl
  · simp [UnpackedFloat.compare, swap_then_compare]
  · simp [UnpackedFloat.compare, swap_then_compare]

theorem beq_comm (x y : Float) : (x == y) = (y == x) := by
  change UnpackedFloat.beq _ _ = UnpackedFloat.beq _ _
  rw [UnpackedFloat.beq, UnpackedFloat.beq, ← compare_swap]
  cases UnpackedFloat.compare _ _ with
  | none => rfl
  | some o => cases o <;> rfl

end AlgebraicModel.Double
