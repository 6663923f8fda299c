import AlgebraicModel.Scalar

/-!
# Relations

The three ways in which a constraint compares its sides.

## Main definitions

* `Relation`: at most, at least, equal
* `Relation.reverse`: the relation that holds once the sides are swapped
* `Relation.holdsWithin`: the comparison of two numbers, up to a tolerance
-/

namespace AlgebraicModel

inductive Relation where
  | le
  | ge
  | eq
deriving DecidableEq, Repr

namespace Relation

def symbol : Relation → String
  | le => "<="
  | ge => ">="
  | eq => "=="

instance : ToString Relation := ⟨symbol⟩

/-- The relation that holds once the sides are swapped. -/
def reverse : Relation → Relation
  | le => ge
  | ge => le
  | eq => eq

/-- Whether `x` stands in the relation to `y`, up to a tolerance. -/
def holdsWithin {α : Type} [Scalar α] (r : Relation) (x y tolerance : α) : Bool :=
  match r with
  | le => x ≤ y + tolerance
  | ge => y - tolerance ≤ x
  | eq => Scalar.abs (x - y) ≤ tolerance

end Relation

end AlgebraicModel
