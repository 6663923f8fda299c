import AlgebraicModel.Scalar
import AlgebraicModel.Variable

/-!
# Monomials

A coefficient times powers of variables. A monomial built here has one factor per variable, in
the order in which the variables first occur, no zero exponents, a total degree of at most
`maxDegree`, and no factors at all when its coefficient is zero.

## Main definitions

* `Monomial.ofFactors?`: merge the factors of a product, unless its degree is too large
* `Monomial.isLike`: the same variables with the same exponents, in any order
* `Monomial.times?`, `scale`, `derivative`: arithmetic
* `Monomial.evaluate`: the value under an assignment
-/

namespace AlgebraicModel

/-- The greatest total degree of a monomial. -/
def maxDegree : Nat := UInt32.size - 1

/-- A power of a variable. -/
structure Factor where
  base : Variable
  exponent : Nat
deriving BEq, Repr

namespace Factor

/-- Multiply a product of powers by one more power, added to the exponent of the factor with the
same variable if there is one. -/
def insert (f : Factor) : List Factor → List Factor
  | [] => [f]
  | g :: gs =>
    if g.base.id = f.base.id then
      { g with exponent := g.exponent + f.exponent } :: gs
    else
      g :: insert f gs

/-- One factor per variable. The first record of a variable is kept. -/
def merge (fs : List Factor) : List Factor :=
  fs.foldl (fun merged f => f.insert merged) []

/-- The sum of the exponents. -/
def degree (fs : List Factor) : Nat :=
  fs.foldr (·.exponent + ·) 0

/-- Lower the exponent of the first power of a variable by one. -/
def lower (id : VariableId) : List Factor → List Factor
  | [] => []
  | f :: fs =>
    if f.base.id = id then { f with exponent := f.exponent - 1 } :: fs else f :: lower id fs

end Factor

structure Monomial (α : Type) where
  coefficient : α
  factors : List Factor
deriving BEq, Repr

namespace Monomial

variable {α : Type}

/-! ## Construction -/

/-- The monomial of degree zero. -/
def const (c : α) : Monomial α := ⟨c, []⟩

/-- A variable, with coefficient one. -/
def ofVariable [One α] (v : Variable) : Monomial α := ⟨1, [⟨v, 1⟩]⟩

/-- Drop zero exponents, and every factor if the coefficient is zero. -/
def normalize [Scalar α] (c : α) (fs : List Factor) : Monomial α :=
  if c == 0 then const 0 else ⟨c, fs.filter (·.exponent ≠ 0)⟩

/-- The product of a coefficient and powers of variables, or `none` if its degree exceeds
`maxDegree`. -/
def ofFactors? [Scalar α] (c : α) (fs : List Factor) : Option (Monomial α) :=
  let merged := Factor.merge fs
  if Factor.degree merged ≤ maxDegree then some (normalize c merged) else none

/-! ## Inspection -/

/-- The total degree. -/
def degree (m : Monomial α) : Nat :=
  Factor.degree m.factors

def isConstant (m : Monomial α) : Bool :=
  m.factors.isEmpty

/-- The record of every factor, in order. -/
def bases (m : Monomial α) : List Variable :=
  m.factors.map (·.base)

def vars (m : Monomial α) : List Variable :=
  Variable.distinct m.bases

/-- The first fault of a factor's variable. -/
def check (m : Monomial α) : Except Variable.Fault Unit :=
  m.bases.forM Variable.check

/-- The variables with their exponents, bounds aside. -/
def powers (m : Monomial α) : List (VariableId × Nat) :=
  m.factors.map fun f => (f.base.id, f.exponent)

/-- Whether two monomials have the same variables with the same exponents, in any order. -/
def isLike (m n : Monomial α) : Bool :=
  m.powers.isPerm n.powers

/-! ## Arithmetic -/

section Arithmetic

variable [Scalar α]

def scale (m : Monomial α) (c : α) : Monomial α :=
  normalize (m.coefficient * c) m.factors

/-- The product, or `none` if its degree exceeds `maxDegree`. -/
def times? (m n : Monomial α) : Option (Monomial α) :=
  ofFactors? (m.coefficient * n.coefficient) (m.factors ++ n.factors)

/-- The partial derivative with respect to the variable of that identity. -/
def derivative (m : Monomial α) (id : VariableId) : Monomial α :=
  match m.factors.find? (·.base.id = id) with
  | none => const 0
  | some f => normalize (m.coefficient * Scalar.ofInt f.exponent) (Factor.lower id m.factors)

/-- The value under an assignment, or the first variable that has none. The powers are multiplied
onto the coefficient in order. -/
def evaluate (m : Monomial α) (σ : Assignment α) : Except VariableId α :=
  m.factors.foldlM (fun product f => return product * Scalar.pow (← σ.value f.base.id) f.exponent)
    m.coefficient

end Arithmetic

end Monomial

end AlgebraicModel
