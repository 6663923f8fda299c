import AlgebraicModel.Expression.Error

/-!
# Validity of expressions

An expression is valid if every variable in it has an identity and bounds in order. The check
stops at the first variable that does not, and reports where it stands.

## Main definitions

* `Expression.check`: the first invalid variable, with its slot and its term
* `checkEach`: check a list in order, and report the index of the first error
-/

namespace AlgebraicModel

open Expression (Error)

/-- Check the elements of a list in order; an error is wrapped with the index of its element. -/
def checkEach {β ε : Type} (wrap : Nat → ε → ε) (check : β → Except ε Unit) (xs : List β) :
    Except ε Unit :=
  xs.zipIdx.forM fun (x, i) => (check x).mapError (wrap i)

/-- Check a scalar, or every element of a vector with the index of the first that fails. -/
def Slots.check {α β : Type} (check : β → Except (Error α) Unit) :
    Slots β → Except (Error α) Unit
  | .scalar x => check x
  | .vector xs => checkEach .element check xs

namespace Expression

variable {α : Type}

def checkVariable (v : Variable) : Except (Error α) Unit :=
  v.check.mapError .invalidVariable

def checkMonomial (m : Monomial α) : Except (Error α) Unit :=
  m.check.mapError .invalidVariable

def checkPolynomial (p : Polynomial α) : Except (Error α) Unit :=
  checkEach .term checkMonomial p.terms

/-- The first invalid variable, with its slot and its term. -/
def check : Expression α → Except (Error α) Unit
  | const _ => .ok ()
  | var vs => vs.check checkVariable
  | mono ms => ms.check checkMonomial
  | poly ps => ps.check checkPolynomial

end Expression

end AlgebraicModel
