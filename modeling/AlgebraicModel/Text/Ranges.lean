/-!
# Classes of characters

A class of characters is a list of closed ranges of code points.

## Main definitions

* `Text.Ranges`: the ranges of a class
* `Text.Ranges.covers`: whether a character is in a class
-/

namespace AlgebraicModel.Text

/-- The first and the last code point of each range. -/
abbrev Ranges := List (Nat × Nat)

/-- The character is in one of the ranges. -/
def Ranges.covers (ranges : Ranges) (c : Char) : Bool :=
  ranges.any fun (first, last) => first ≤ c.toNat && c.toNat ≤ last

end AlgebraicModel.Text
