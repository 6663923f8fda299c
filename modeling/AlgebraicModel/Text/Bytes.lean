/-!
# Places in bytes

A place in a text is the number of bytes of UTF-8 in front of it. A place inside a character stands
for the end of that character.

## Main definitions

* `Text.byteSize`: the number of bytes of a text
* `Text.dropBytes`, `Text.takeBytes`: a text behind and in front of a place
-/

namespace AlgebraicModel.Text

def byteSize (cs : List Char) : Nat :=
  cs.foldr (·.utf8Size + ·) 0

def dropBytes : Nat → List Char → List Char
  | 0, cs => cs
  | _, [] => []
  | n, c :: cs => dropBytes (n - c.utf8Size) cs

def takeBytes : Nat → List Char → List Char
  | 0, _ => []
  | _, [] => []
  | n, c :: cs => c :: takeBytes (n - c.utf8Size) cs

end AlgebraicModel.Text
