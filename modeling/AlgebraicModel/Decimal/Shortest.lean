/-!
# Shortest decimals

A positive binary value `m * 2 ^ q` stands for every real number that rounds to it. The shortest
decimal is the one with the fewest digits among those reals, and of several the nearest to the
value. All comparisons are exact, between natural numbers.

## Main definitions

* `Dyadic`: a positive binary value and the interval that rounds to it
* `Decimal`: digits and a power of ten
* `Dyadic.shortest`: the decimal with the fewest digits that reads back
-/

namespace AlgebraicModel

/-- `digits * 10 ^ exponent`. -/
structure Decimal where
  digits : Nat
  exponent : Int
deriving DecidableEq, Repr

/-- Drop the trailing zeros of the digits, at most `fuel` of them. -/
def Decimal.strip (d : Decimal) : Nat → Decimal
  | 0 => d
  | fuel + 1 =>
    if d.digits % 10 = 0 then Decimal.strip ⟨d.digits / 10, d.exponent + 1⟩ fuel else d

/-- How many decimal digits a number has. -/
def decimalLength (n : Nat) : Nat :=
  (Nat.toDigits 10 n).length

/-- Order `a * 10 ^ p` against `b * 2 ^ q`. -/
def compareDecimalBinary (a : Nat) (p : Int) (b : Nat) (q : Int) : Ordering :=
  compare (a * Nat.pow 10 p.toNat * Nat.pow 2 (-q).toNat)
    (b * Nat.pow 2 q.toNat * Nat.pow 10 (-p).toNat)

/-- The binary value `mantissa * 2 ^ exponent`; `narrow` if the next smaller value of its format
is only half as far away as the next greater one. -/
structure Dyadic where
  mantissa : Nat
  exponent : Int
  narrow : Bool
deriving DecidableEq, Repr

namespace Dyadic

/-- The ends of the rounding interval, in quarters of the last binary place. -/
def ends (x : Dyadic) : Nat × Nat :=
  (4 * x.mantissa - (if x.narrow then 1 else 2), 4 * x.mantissa + 2)

/-- Whether `a * 10 ^ p` rounds to the value. The ends do exactly if the mantissa is even. -/
def contains (x : Dyadic) (a : Nat) (p : Int) : Bool :=
  let low := compareDecimalBinary a p x.ends.1 (x.exponent - 2)
  let high := compareDecimalBinary a p x.ends.2 (x.exponent - 2)
  if x.mantissa % 2 = 0 then low != .lt && high != .gt else low == .gt && high == .lt

/-- The greatest number of steps of `10 ^ p` that does not exceed the value. -/
def floorAt (x : Dyadic) (p : Int) : Nat :=
  x.mantissa * Nat.pow 2 x.exponent.toNat * Nat.pow 10 (-p).toNat /
    (Nat.pow 2 (-x.exponent).toNat * Nat.pow 10 p.toNat)

/-- The decimal exponent of the value's leading digit. -/
def leadingExponent (x : Dyadic) : Int :=
  let num := x.mantissa * Nat.pow 2 x.exponent.toNat
  let den := Nat.pow 2 (-x.exponent).toNat
  if den ≤ num then decimalLength (num / den) - 1 else -decimalLength ((den - 1) / num)

/-- The nearer of the value's two neighbours on the grid of step `10 ^ p`, among those that round
to the value; the upper one if both are equally near. -/
def nearestAt (x : Dyadic) (p : Int) : Option Decimal :=
  let lower := x.floorAt p
  match x.contains lower p, x.contains (lower + 1) p with
  | true, false => some ⟨lower, p⟩
  | false, true => some ⟨lower + 1, p⟩
  | true, true =>
    if compareDecimalBinary (2 * lower + 1) p (2 * x.mantissa) x.exponent == .gt then
      some ⟨lower, p⟩
    else
      some ⟨lower + 1, p⟩
  | false, false => none

/-- The first of the grids `10 ^ p`, `10 ^ (p - 1)`, … with a point that rounds to the value. -/
def firstGrid (x : Dyadic) (p : Int) : Nat → Decimal
  | 0 => ⟨x.floorAt p, p⟩
  | fuel + 1 => (x.nearestAt p).getD (firstGrid x (p - 1) fuel)

/-- The decimal with the fewest digits that rounds to the value. Seventeen digits always suffice
for a double. -/
def shortest (x : Dyadic) : Decimal :=
  (x.firstGrid x.leadingExponent 17).strip 400

end Dyadic

end AlgebraicModel
