/-!
# Names and metadata

Things can be named and annotated. A name belongs to the thing it was last given to; several
things may carry one name, of which only the last to get it is found by it.

## Main definitions

* `Labels ι μ`: names and metadata of things with identities in `ι`
* `Labels.setName`, `named?`: naming, and looking up by name
-/

namespace AlgebraicModel

/-- Change the value of a map at one point. -/
def updateAt {κ β : Type} [DecidableEq κ] (f : κ → β) (k : κ) (x : β) : κ → β :=
  fun k' => if k' = k then x else f k'

structure Labels (ι μ : Type) where
  /-- The name that each thing carries. -/
  name? : ι → Option String := fun _ => none
  /-- The thing that each name was last given to, as long as it carries it. -/
  holder? : String → Option ι := fun _ => none
  metadata? : ι → Option μ := fun _ => none

namespace Labels

variable {ι μ : Type} [DecidableEq ι]

/-- Give up the name that a thing carries, if it is found by it. -/
def release (l : Labels ι μ) (i : ι) : Labels ι μ :=
  match l.name? i with
  | none => l
  | some n => if l.holder? n = some i then { l with holder? := updateAt l.holder? n none } else l

/-- Name a thing. It gives up the name it carried before. -/
def setName (l : Labels ι μ) (i : ι) (n : String) : Labels ι μ :=
  { l.release i with
    name? := updateAt l.name? i (some n)
    holder? := updateAt (l.release i).holder? n (some i) }

/-- The thing that a name was last given to, if it carries it. -/
def named? (l : Labels ι μ) (n : String) : Option ι :=
  (l.holder? n).filter fun i => l.name? i = some n

def setMetadata (l : Labels ι μ) (i : ι) (x : μ) : Labels ι μ :=
  { l with metadata? := updateAt l.metadata? i (some x) }

end Labels

end AlgebraicModel
