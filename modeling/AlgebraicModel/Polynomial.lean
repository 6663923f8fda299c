import AlgebraicModel.Monomial

/-!
# Polynomials

A sum of monomials, like terms collected. The terms stand in the order in which their variables
and exponents first occur, each with the factors of its first occurrence, and no coefficient is
zero.

## Main definitions

* `Polynomial.ofTerms`: collect like terms
* `Polynomial.add`, `times?`, `scale`, `derivative`: arithmetic
* `Polynomial.constant`: the sum of the terms of degree zero
* `Polynomial.evaluate`: the value under an assignment
-/

namespace AlgebraicModel

structure Polynomial (α : Type) where
  terms : List (Monomial α)
deriving BEq, Repr

/-- Add a monomial to a sum, to the coefficient of the like term if there is one. -/
def Monomial.insert {α : Type} [Add α] (m : Monomial α) : List (Monomial α) → List (Monomial α)
  | [] => [m]
  | t :: ts =>
    if t.isLike m then
      { t with coefficient := t.coefficient + m.coefficient } :: ts
    else
      t :: insert m ts

namespace Polynomial

variable {α : Type}

/-! ## Construction -/

/-- The empty sum. -/
def empty : Polynomial α := ⟨[]⟩

/-- Collect like terms, each group from the left, and drop the groups whose sum is zero. -/
def ofTerms [Scalar α] (ts : List (Monomial α)) : Polynomial α :=
  ⟨(ts.foldl (fun collected t => t.insert collected) []).filter (·.coefficient != 0)⟩

def ofMonomial [Scalar α] (m : Monomial α) : Polynomial α :=
  ofTerms [m]

/-! ## Inspection -/

/-- The greatest total degree of a term. -/
def degree (p : Polynomial α) : Nat :=
  (p.terms.map (·.degree)).foldr max 0

def vars (p : Polynomial α) : List Variable :=
  Variable.distinct (p.terms.flatMap (·.bases))

/-! ## Arithmetic -/

section Arithmetic

variable [Scalar α]

/-- The sum of the terms of degree zero. -/
def constant (p : Polynomial α) : α :=
  total ((p.terms.filter (·.isConstant)).map (·.coefficient))

def add (p q : Polynomial α) : Polynomial α :=
  ofTerms (p.terms ++ q.terms)

/-- The product, expanded term by term, or `none` if the degree of a term exceeds `maxDegree`. -/
def times? (p q : Polynomial α) : Option (Polynomial α) := do
  let products ← p.terms.mapM fun s => q.terms.mapM fun t => s.times? t
  return ofTerms products.flatten

def scale (p : Polynomial α) (c : α) : Polynomial α :=
  ofTerms (p.terms.map (·.scale c))

/-- The partial derivative with respect to the variable of that identity. -/
def derivative (p : Polynomial α) (id : VariableId) : Polynomial α :=
  ofTerms (p.terms.map (·.derivative id))

/-- The value under an assignment, or the first variable that has none. -/
def evaluate (p : Polynomial α) (σ : Assignment α) : Except VariableId α := do
  return total (← p.terms.mapM (·.evaluate σ))

end Arithmetic

end Polynomial

end AlgebraicModel
