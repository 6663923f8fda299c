import AlgebraicModel.Decimal.Shortest

/-!
# Doubles as text

A finite double is written with the fewest digits that read back, always positionally: no
exponent, however large or small, and no fraction for a whole number. The sign of zero shows.

## Main definitions

* `Decimal.positional`: a decimal without an exponent
* `doubleMagnitude`: the value of a finite double without its sign
* `decimalText`: a double as text
-/

namespace AlgebraicModel

/-- Write a decimal without an exponent. -/
def Decimal.positional (d : Decimal) : String :=
  let digits := Nat.toDigits 10 d.digits
  let places := (-d.exponent).toNat
  if places = 0 then
    String.ofList (digits ++ List.replicate d.exponent.toNat '0')
  else
    let padded := List.replicate (places + 1 - digits.length) '0' ++ digits
    let whole := padded.length - places
    String.ofList (padded.take whole ++ '.' :: padded.drop whole)

/-- The magnitude of a finite double that is not zero: 52 stored bits with a hidden one above
them, except at the smallest exponent. -/
def doubleMagnitude (x : Float) : Dyadic :=
  let bits : Nat := x.toBits.toNat
  let biased : Nat := bits / Nat.pow 2 52 % 2048
  let stored : Nat := bits % Nat.pow 2 52
  if biased = 0 then
    ⟨stored, -1074, false⟩
  else
    ⟨stored + Nat.pow 2 52, biased - 1075, stored = 0 && 1 < biased⟩

/-- A double as text. -/
def decimalText (x : Float) : String :=
  if x.isNaN then
    "NaN"
  else
    let sign := if x.toBits.toNat < Nat.pow 2 63 then "" else "-"
    if x.isInf then
      sign ++ "inf"
    else if x == 0 then
      sign ++ "0"
    else
      sign ++ (doubleMagnitude x).shortest.positional

end AlgebraicModel
