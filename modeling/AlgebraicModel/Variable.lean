/-!
# Decision variables

A variable is an identity with bounds and an integrality. Two records with one identity are the
same unknown, whatever their bounds. Identity zero belongs to no variable.

## Main definitions

* `VariableId`, `IdSupply`: identities, and where fresh ones come from
* `Variable.check`: the first thing wrong with a variable
* `Variable.distinct`: first occurrences, by identity
* `Assignment`: values for variables
-/

namespace AlgebraicModel

structure VariableId where
  value : UInt64
deriving DecidableEq, Repr, Inhabited

namespace VariableId

/-- Zero is the identity of no variable. -/
def isInitialized (id : VariableId) : Bool :=
  id.value != 0

instance : ToString VariableId := ⟨fun id => toString id.value⟩

end VariableId

/-- Whether a variable may take every value between its bounds. -/
inductive Integrality where
  | continuous
  | binary
  | integer
deriving DecidableEq, Repr

structure Bounds where
  lower : Float := -1.0 / 0.0
  upper : Float := 1.0 / 0.0
deriving BEq, Repr

namespace Bounds

def unbounded : Bounds := {}

def nonNegative : Bounds := { lower := 0.0 }

def unit : Bounds := ⟨0.0, 1.0⟩

/-- Neither bound is missing and they are in order. -/
def isValid (b : Bounds) : Bool :=
  !b.lower.isNaN && !b.upper.isNaN && b.lower ≤ b.upper

end Bounds

structure Variable where
  id : VariableId
  bounds : Bounds := .unbounded
  integrality : Integrality := .continuous
deriving BEq, Repr

namespace Variable

/-- A variable without an identity. -/
def blank : Variable := { id := ⟨0⟩ }

/-- What can be wrong with a variable. -/
inductive Fault where
  | uninitialized
  | invalidBounds (id : VariableId) (bounds : Bounds)
deriving BEq, Repr

def check (v : Variable) : Except Fault Unit :=
  if !v.id.isInitialized then
    .error .uninitialized
  else if !v.bounds.isValid then
    .error (.invalidBounds v.id v.bounds)
  else
    .ok ()

instance : ToString Variable := ⟨fun v => s!"x{v.id}"⟩

/-- The first record of every identity, in order. -/
def distinct : List Variable → List Variable
  | [] => []
  | v :: vs => v :: (distinct vs).filter (·.id ≠ v.id)

end Variable

/-! ## Fresh identities -/

/-- The identities from `next` on have not been given out. The supply starts over after `2 ^ 64`
of them. -/
structure IdSupply where
  next : UInt64 := 1
deriving DecidableEq, Repr

namespace IdSupply

def take (s : IdSupply) : VariableId × IdSupply :=
  (⟨s.next⟩, ⟨s.next + 1⟩)

/-- A fresh variable with the given bounds. -/
def variableWith (s : IdSupply) (integrality : Integrality) (bounds : Bounds) :
    Variable × IdSupply :=
  ({ id := s.take.1, bounds, integrality }, s.take.2)

/-- `n` fresh variables, continuous and unbounded. -/
def vector (s : IdSupply) : Nat → List Variable × IdSupply
  | 0 => ([], s)
  | n + 1 =>
    let (v, s) := s.variableWith .continuous .unbounded
    let (vs, s) := vector s n
    (v :: vs, s)

end IdSupply

/-! ## Assignments -/

/-- The value of each variable that has one. -/
abbrev Assignment (α : Type) := VariableId → Option α

namespace Assignment

/-- Read the pairs in order; a later value replaces an earlier one. -/
def ofList {α : Type} (pairs : List (VariableId × α)) : Assignment α :=
  pairs.foldl (fun σ p id => if id = p.1 then some p.2 else σ id) fun _ => none

/-- The value of a variable, or the identity that has none. -/
def value {α : Type} (σ : Assignment α) (id : VariableId) : Except VariableId α :=
  match σ id with
  | some x => .ok x
  | none => .error id

end Assignment

end AlgebraicModel
