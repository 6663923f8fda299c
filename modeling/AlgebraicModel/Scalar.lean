/-!
# Numbers as coefficients

Expressions, matrices and systems are written over a type of numbers `α`. The class below lists
the operations they use and asks for no laws: doubles have the operations and few of the laws,
the rationals have both. What a computation does is therefore fixed operation by operation, in
order, and what it means is read off at the rationals.

## Main definitions

* `Scalar α`: the arithmetic, the comparisons and the text of a number type
* `powBySquaring`: the order in which a power multiplies
* `total`: a sum, added up from the left
* `dot`: the sum of products, in eight lanes
-/

namespace AlgebraicModel

/-- A type of numbers to compute with. -/
class Scalar (α : Type) extends
    Zero α, One α, Add α, Sub α, Mul α, Neg α, LE α, LT α, BEq α, OfScientific α where
  /-- Where a sum starts: a number that leaves every other unchanged when added to it. -/
  sumStart : α
  ofInt : Int → α
  pow : α → Nat → α
  abs : α → α
  isFinite : α → Bool
  /-- How the number is written in a message. -/
  text : α → String
  decidableLE : DecidableRel (α := α) (· ≤ ·)
  decidableLT : DecidableRel (α := α) (· < ·)

instance Scalar.instDecidableLE {α : Type} [Scalar α] : DecidableRel (α := α) (· ≤ ·) :=
  Scalar.decidableLE

instance Scalar.instDecidableLT {α : Type} [Scalar α] : DecidableRel (α := α) (· < ·) :=
  Scalar.decidableLT

/-! ## Powers -/

section Power

variable {α : Type} [One α] [Mul α]

/-- Square `square` once per binary digit of `n`, lowest first, and multiply `product` by the
current square at every digit that is one. -/
def squareAndMultiply (product square : α) (n : Nat) : α :=
  let product := if n % 2 = 1 then product * square else product
  if n / 2 = 0 then product else squareAndMultiply product (square * square) (n / 2)
termination_by n
decreasing_by omega

/-- The `n`-th power of `x` by repeated squaring. -/
def powBySquaring (x : α) (n : Nat) : α :=
  squareAndMultiply 1 x n

end Power

/-! ## Sums -/

section Sum

variable {α : Type} [Scalar α]

/-- Add up a list from the left. -/
def total (xs : List α) : α :=
  xs.foldl (· + ·) Scalar.sumStart

/-- Add the products of eight pairs to eight running sums, block by block, as long as there are
eight pairs left; give the sums and the pairs that fill no block. -/
def sumBlocks (lanes : List α) (pairs : List (α × α)) : List α × List (α × α) :=
  if pairs.length < 8 then
    (lanes, pairs)
  else
    sumBlocks (lanes.zipWith (fun a p => a + p.1 * p.2) (pairs.take 8)) (pairs.drop 8)
termination_by pairs.length
decreasing_by simp only [List.length_drop]; omega

/-- Join the eight running sums, lane `k` with lane `k + 4`. -/
def joinLanes (lanes : List α) : α :=
  ((lanes.take 4).zipWith (· + ·) (lanes.drop 4)).foldl (· + ·) 0

/-- The sum of the products of two lists of equal length: full blocks of eight in eight lanes,
then the remaining products in order. -/
def dot (xs ys : List α) : α :=
  let blocks := sumBlocks (List.replicate 8 0) (xs.zip ys)
  blocks.2.foldl (fun acc p => acc + p.1 * p.2) (joinLanes blocks.1)

end Sum

end AlgebraicModel
