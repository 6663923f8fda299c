/-!
# Slots

The contents of an expression: one value, or a column of values. A column of one value is not the
same as the value.

## Main definitions

* `Slots β`: a scalar or a vector of `β`
* `Slots.ofList`: a scalar for one value, unless a vector is asked for
* `broadcast?`: pair two lists, repeating a list of length one
-/

namespace AlgebraicModel

inductive Slots (β : Type) where
  | scalar (x : β)
  | vector (xs : List β)
deriving BEq, Repr

namespace Slots

variable {β γ : Type}

def toList : Slots β → List β
  | scalar x => [x]
  | vector xs => xs

def isVector : Slots β → Bool
  | scalar _ => false
  | vector _ => true

/-- How many slots there are; a scalar has one. -/
def length (s : Slots β) : Nat :=
  s.toList.length

/-- One slot, as a scalar. -/
def at? (s : Slots β) (index : Nat) : Option (Slots β) :=
  s.toList[index]?.map scalar

def map (f : β → γ) : Slots β → Slots γ
  | scalar x => scalar (f x)
  | vector xs => vector (xs.map f)

/-- A vector of the values, or their scalar if there is just one and no vector is asked for. -/
def ofList (isVector : Bool) : List β → Slots β
  | [x] => if isVector then vector [x] else scalar x
  | xs => vector xs

end Slots

/-- Combine two lists slot by slot. A list of length one is repeated along the other; any other
difference in length gives `none`. -/
def broadcast? {β γ δ : Type} (f : β → γ → δ) (xs : List β) (ys : List γ) : Option (List δ) :=
  if xs.length = ys.length then
    some (xs.zipWith f ys)
  else
    match xs, ys with
    | xs, [y] => some (xs.map (f · y))
    | [x], ys => some (ys.map (f x))
    | _, _ => none

end AlgebraicModel
