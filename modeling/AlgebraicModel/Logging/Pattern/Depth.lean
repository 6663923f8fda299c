/-!
# Depth of a pattern

The parts of a pattern are nested in one another no deeper than a limit.

## Main definitions

* `Pattern.maxDepth`: the limit
* `Pattern.depthOf`: the depth of parts that stand beside one another
-/

namespace AlgebraicModel.Logging.Pattern

def maxDepth : Nat := 250

/-- The depth of a row of parts of certain depths. A single part is a row by itself; several parts
are nested in their row. -/
def depthOf : List Nat → Nat
  | [] => 0
  | [d] => d
  | d :: ds => 1 + ds.foldl max d

end AlgebraicModel.Logging.Pattern
