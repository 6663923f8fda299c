import AlgebraicModel.Text.Digit

/-!
# Numbers in JSON

A number is read as a double in two steps. Its digits give a significand as long as that fits
into 64 bits, further digits only count; then the significand, rounded to a double, is multiplied
or divided by a power of ten. The result need not be the nearest double.

## Main definitions

* `Json.absorb`: the significand of a run of digits
* `Json.scaleByTen`: a double times a power of ten, if that is finite
* `Json.readNumber`: a number at the start of a text
-/

namespace AlgebraicModel.Json

open Text (digitValue)

/-- Append digits to a significand while it stays below `2 ^ 64`; give the digits left over. -/
def absorb (significand : Nat) : List Char → Nat × List Char
  | [] => (significand, [])
  | d :: ds =>
    let next := significand * 10 + digitValue d
    if next < 2 ^ 64 then absorb next ds else (significand, d :: ds)

def powerOfTen (n : Nat) : Float :=
  Float.ofScientific 1 false n

/-- The double times `10 ^ exponent`, or `none` if that is too large. Exponents below `-308` are
divided off in steps. -/
def scaleByTen (x : Float) (exponent : Int) : Option Float :=
  if x == 0 then
    some x
  else if 308 < exponent then
    none
  else if 0 ≤ exponent then
    let y := x * powerOfTen exponent.toNat
    if y.isInf then none else some y
  else if -308 ≤ exponent then
    some (x / powerOfTen (-exponent).toNat)
  else
    scaleByTen (x / powerOfTen 308) (exponent + 308)
termination_by (-exponent).toNat
decreasing_by omega

/-- The digits at the start of a text, and the rest. -/
def readDigits (cs : List Char) : List Char × List Char :=
  cs.span Char.isDigit

/-- The digits after a point, if there is one. -/
def readFraction : List Char → Option (List Char × List Char)
  | '.' :: cs =>
    let (digits, cs) := readDigits cs
    if digits.isEmpty then none else some (digits, cs)
  | cs => some ([], cs)

/-- The power of ten after an `e`, if there is one. -/
def readExponent : List Char → Option (Int × List Char)
  | 'e' :: cs | 'E' :: cs =>
    let (negative, cs) := match cs with
      | '+' :: cs => (false, cs)
      | '-' :: cs => (true, cs)
      | cs => (false, cs)
    let (digits, cs) := readDigits cs
    if digits.isEmpty then
      none
    else
      let n : Nat := digits.foldl (fun n d => n * 10 + digitValue d) 0
      some (if negative then -n else n, cs)
  | cs => some (0, cs)

/-- A number without its sign: digits without a leading zero, a fraction, an exponent. -/
def readMagnitude (cs : List Char) : Option (Float × List Char) := do
  let (whole, cs) := readDigits cs
  if whole.isEmpty || (whole.head? = some '0' && 1 < whole.length) then
    none
  let (fraction, cs) ← readFraction cs
  let (exponent, cs) ← readExponent cs
  let (significand, counted) := absorb 0 whole
  let (significand, dropped) := absorb significand fraction
  let places : Int := counted.length - (fraction.length - dropped.length)
  let x ← scaleByTen (Float.ofNat significand) (exponent + places)
  return (x, cs)

/-- A number at the start of a text, and the rest. -/
def readNumber : List Char → Option (Float × List Char)
  | '-' :: cs => do
    let (x, cs) ← readMagnitude cs
    return (-x, cs)
  | cs => readMagnitude cs

end AlgebraicModel.Json
