/-!
# Log records

What a log shows of an event: named fields and a message. Events have types of their own; a
record is their written form.

## Main definitions

* `Log.Field`, `Log.Record`: the written form of an event
-/

namespace AlgebraicModel.Log

/-- The value of a field; numbers are those of the coefficients. -/
inductive Field (α : Type) where
  | text (value : String)
  | count (value : Nat)
  | flag (value : Bool)
  | number (value : α)
deriving BEq, Repr

structure Record (α : Type) where
  message : String
  fields : List (String × Field α)
deriving BEq, Repr

/-- The fields that every event has: the part of the library, the operation and its outcome. -/
def Record.ofOperation {α : Type} (component operation status message : String)
    (fields : List (String × Field α)) : Record α where
  message
  fields :=
    ("component", .text component) :: ("operation", .text operation) ::
      ("status", .text status) :: fields

end AlgebraicModel.Log
