import AlgebraicModel.Expression.Operand
import AlgebraicModel.Expression.Shape
import AlgebraicModel.Expression.Validity

/-!
# Arithmetic on expressions

An operation checks its receiver, reads and checks its operand, checks their shapes, and then
computes in the higher of the two families. A scalar is repeated along a vector; the result is a
vector if an operand is.

## Main definitions

* `Expression.add`, `mul`: sums and products of operands that fit
* `Expression.plus`, `minus`, `multiply`, `dot`: the checked operations
* `Expression.power`, `negate`, `transpose`: the operations on one expression
-/

namespace AlgebraicModel.Expression

variable {α : Type} [Scalar α]

/-- Pair the slots of two operands and combine them. -/
def zipSlots {β γ : Type} (f : β → β → γ) (xs ys : List β) (mismatch : Error α) :
    Except (Error α) (List γ) :=
  match broadcast? f xs ys with
  | some zs => .ok zs
  | none => .error mismatch

/-- The results of products, unless the degree of one is too large. -/
def products {β : Type} (xs : List (Option β)) : Except (Error α) (List β) :=
  match xs.mapM id with
  | some ys => .ok ys
  | none => .error .degreeOverflow

/-! ## Sums -/

/-- The sum of the slots as polynomials. -/
def addPolynomials (a b : Expression α) : Except (Error α) (Expression α) := do
  let sums ← zipSlots Polynomial.add a.polynomials b.polynomials (.dimension .plus a b)
  return poly (.ofList (a.isVector || b.isVector) sums)

/-- The sum of `a` and an operand of no higher family. Two vectors of numbers need equal lengths,
where other families would repeat a single slot. Two like scalar monomials have a monomial as their
sum; every other sum with a variable in it is a polynomial. -/
def addToHigher (a b : Expression α) : Except (Error α) (Expression α) :=
  match a, b with
  | const xs, const ys =>
    if a.isScalar || b.isScalar || a.length == b.length then do
      let sums ← zipSlots (· + ·) xs.toList ys.toList (.dimension .plus a b)
      return const (.ofList (a.isVector || b.isVector) sums)
    else
      .error (.dimension .plus a b)
  | mono (.scalar m), b =>
    match b.isScalar, b.monomials? with
    | true, some [n] =>
      if m.isLike n then
        .ok (mono (.scalar (.normalize (m.coefficient + n.coefficient) m.factors)))
      else
        addPolynomials a b
    | _, _ => addPolynomials a b
  | a, b => addPolynomials a b

/-- The sum of two operands that fit. -/
def add (a b : Expression α) : Except (Error α) (Expression α) :=
  if a.family < b.family then addToHigher b a else addToHigher a b

/-! ## Products -/

/-- What a family's products are made of: numbers, monomials or polynomials. Variables and
monomials share one product. -/
def Family.productRank : Family → Nat
  | const => 0
  | var | mono => 1
  | poly => 2

/-- The product of `a` and an operand whose products are made of nothing higher. Vectors of numbers
need one of length one, where others may also have equal lengths. -/
def mulToHigher (a b : Expression α) : Except (Error α) (Expression α) :=
  match a, b with
  | const xs, const ys =>
    if a.length == 1 || b.length == 1 then do
      let results ← zipSlots (· * ·) xs.toList ys.toList (.vectorProduct a.kind b.kind)
      return const (.ofList (a.isVector || b.isVector) results)
    else
      .error (.vectorProduct a.kind b.kind)
  | a, b =>
    match a.monomials?, b.monomials? with
    | some ms, some ns => do
      let results ← products (← zipSlots Monomial.times? ms ns (.dimension .multiply a b))
      return mono (.ofList (a.isVector || b.isVector) results)
    | _, _ => do
      let results ← products
        (← zipSlots Polynomial.times? a.polynomials b.polynomials (.dimension .multiply a b))
      return poly (.ofList (a.isVector || b.isVector) results)

/-- The product of two operands that fit. -/
def mul (a b : Expression α) : Except (Error α) (Expression α) :=
  if a.family.productRank < b.family.productRank then mulToHigher b a else mulToHigher a b

/-! ## One operand -/

/-- The opposite of every slot. The opposite of a variable is a monomial. -/
def negate : Expression α → Expression α
  | const xs => const (xs.map (-·))
  | var vs => mono (vs.map fun v => (Monomial.ofVariable v).scale (-1))
  | mono ms => mono (ms.map (·.scale (-1)))
  | poly ps => poly (ps.map (·.scale (-1)))

/-- Multiply `product` by `e`, `n` times. -/
def mulRepeated (e product : Expression α) : Nat → Except (Error α) (Expression α)
  | 0 => .ok product
  | n + 1 => do mulRepeated e (← product.mul e) n

/-- The `n`-th power of a scalar, by repeated multiplication from one. -/
def power (e : Expression α) (n : Nat) : Except (Error α) (Expression α) := do
  if e.isVector then
    .error (.nonScalar .power e.kind)
  e.check
  mulRepeated e (const (.scalar 1)) n

/-- An expression of length one is its own transpose; any other would be a row. -/
def transpose (e : Expression α) : Except (Error α) (Expression α) :=
  if e.length = 1 then .ok e else .error (.matrixResult .transpose 1 e.length)

/-! ## Two operands -/

/-- Check the receiver, then read the operand and check it. -/
def checkedOperand (a : Expression α) (b : Operand α) : Except (Error α) (Expression α) := do
  a.check
  let b ← b.toExpression
  b.check
  return b

def plus (a : Expression α) (b : Operand α) : Checked α (Expression α) := do
  let b ← a.checkedOperand b
  checkSum .plus a b
  a.add b

def minus (a : Expression α) (b : Operand α) : Checked α (Expression α) := do
  let b ← a.checkedOperand b
  checkSum .minus a b
  a.add b.negate

def multiply (a : Expression α) (b : Operand α) : Checked α (Expression α) := do
  let b ← a.checkedOperand b
  checkProduct a b
  a.mul b

/-- The terms of the products of the slots, one after the other. -/
def dotTerms (a b : Expression α) : Except (Error α) (List (Monomial α)) := do
  let terms ← (List.range a.length).mapM fun i => do
    let product ← (← a.slot i).mul (← b.slot i)
    return product.polynomials.flatMap (·.terms)
  return terms.flatten

/-- The sum of the products of the slots. -/
def dot (a : Expression α) (b : Operand α) : Checked α (Expression α) := do
  let b ← a.checkedOperand b
  if a.length ≠ b.length then
    Logged.fail (.dimension .dot a b)
  match a, b with
  | const xs, const ys => return const (.scalar (AlgebraicModel.dot xs.toList ys.toList))
  | a, b => return poly (.scalar (.ofTerms (← a.dotTerms b)))

end AlgebraicModel.Expression
