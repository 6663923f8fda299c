import AlgebraicModel.Matrix
import AlgebraicModel.Polynomial
import AlgebraicModel.Slots

/-!
# Expressions

An expression is a number, a variable, a monomial or a polynomial, or a column of one of these.
The four families are ordered by what they can express; every expression of a lower family can be
read in a higher one.

## Main definitions

* `Expression α`: the slots of one of the four families
* `Expression.Family`, `Expression.Kind`: the family, with and without the shape
* `Expression.monomials?`, `polynomials`: the slots read as monomials and as polynomials
* `Expression.vars`, `degree`: what occurs in an expression
-/

namespace AlgebraicModel

inductive Expression (α : Type) where
  | const (xs : Slots α)
  | var (vs : Slots Variable)
  | mono (ms : Slots (Monomial α))
  | poly (ps : Slots (Polynomial α))
deriving BEq, Repr

namespace Expression

/-! ## Families and kinds -/

inductive Family where
  | const
  | var
  | mono
  | poly
deriving DecidableEq, Repr

namespace Family

/-- The place of a family in the order of what the families can express. -/
def rank : Family → Nat
  | const => 0
  | var => 1
  | mono => 2
  | poly => 3

instance : LT Family := ⟨fun f g => f.rank < g.rank⟩

instance (f g : Family) : Decidable (f < g) := inferInstanceAs (Decidable (f.rank < g.rank))

def name : Family → String
  | const => "Constant"
  | var => "Variable"
  | mono => "Monomial"
  | poly => "Polynomial"

end Family

/-- A family and a shape. -/
structure Kind where
  family : Family
  isVector : Bool
deriving DecidableEq, Repr

/-- The name of a kind in messages. -/
def Kind.name (k : Kind) : String :=
  let base := match k.family with
    | .const => "K"
    | f => f.name
  if k.isVector then base ++ "Vector" else base

variable {α : Type}

def family : Expression α → Family
  | const _ => .const
  | var _ => .var
  | mono _ => .mono
  | poly _ => .poly

/-! ## Shape -/

def isVector : Expression α → Bool
  | const xs => xs.isVector
  | var vs => vs.isVector
  | mono ms => ms.isVector
  | poly ps => ps.isVector

def isScalar (e : Expression α) : Bool := !e.isVector

/-- How many slots there are; a scalar has one. -/
def length : Expression α → Nat
  | const xs => xs.length
  | var vs => vs.length
  | mono ms => ms.length
  | poly ps => ps.length

def kind (e : Expression α) : Kind := ⟨e.family, e.isVector⟩

/-- One slot, as a scalar expression. -/
def slot? (e : Expression α) (index : Nat) : Option (Expression α) :=
  match e with
  | const xs => (xs.at? index).map const
  | var vs => (vs.at? index).map var
  | mono ms => (ms.at? index).map mono
  | poly ps => (ps.at? index).map poly

/-! ## Reading an expression in a higher family -/

section Lift

variable [Scalar α]

/-- The slots as monomials, unless they are polynomials. -/
def monomials? : Expression α → Option (List (Monomial α))
  | const xs => some (xs.toList.map .const)
  | var vs => some (vs.toList.map .ofVariable)
  | mono ms => some ms.toList
  | poly _ => none

/-- The slots as polynomials. -/
def polynomials : Expression α → List (Polynomial α)
  | const xs => xs.toList.map fun x => .ofMonomial (.const x)
  | var vs => vs.toList.map fun v => .ofMonomial (.ofVariable v)
  | mono ms => ms.toList.map .ofMonomial
  | poly ps => ps.toList

end Lift

/-! ## Inspection -/

/-- The record of every variable that occurs, slot by slot. -/
def bases : Expression α → List Variable
  | const _ => []
  | var vs => vs.toList
  | mono ms => ms.toList.flatMap (·.bases)
  | poly ps => ps.toList.flatMap fun p => p.terms.flatMap (·.bases)

/-- The variables that occur, by identity, in the order of their first occurrence. -/
def vars (e : Expression α) : List Variable :=
  Variable.distinct e.bases

/-- The greatest total degree of a term. -/
def degree : Expression α → Nat
  | const _ => 0
  | var vs => if vs.toList.isEmpty then 0 else 1
  | mono ms => (ms.toList.map (·.degree)).foldr max 0
  | poly ps => (ps.toList.map (·.degree)).foldr max 0

end Expression

end AlgebraicModel
