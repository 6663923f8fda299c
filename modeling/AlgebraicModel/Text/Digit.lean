/-!
# Digits

## Main definitions

* `Text.digitValue`: the value of a decimal digit
* `Text.hexValue?`: the value of a hexadecimal digit
-/

namespace AlgebraicModel.Text

def digitValue (c : Char) : Nat :=
  c.toNat - '0'.toNat

def hexValue? (c : Char) : Option Nat :=
  if c.isDigit then
    some (digitValue c)
  else if 'a' ≤ c ∧ c ≤ 'f' then
    some (c.toNat - 'a'.toNat + 10)
  else if 'A' ≤ c ∧ c ≤ 'F' then
    some (c.toNat - 'A'.toNat + 10)
  else
    none

end AlgebraicModel.Text
