import AlgebraicModel.Logging.Pattern.Flags
import AlgebraicModel.Text.Alphanumeric

/-!
# Openings of groups

A group may have a name, or flags of its own. Flags between parentheses are no group: they hold up
to the end of the group around them.

## Main definitions

* `Pattern.Opening`: what an opening parenthesis starts
* `Pattern.Opening.read`: the opening behind a parenthesis
-/

namespace AlgebraicModel.Logging.Pattern

open Text (isAlphabetic isAlphanumeric)

inductive Opening where
  /-- Flags for what follows. -/
  | flags (fs : Flags)
  /-- A group with its flags, and with the names that it adds, at most one. -/
  | group (fs : Flags) (names : List (List Char))

def isGroupName : List Char → Bool
  | [] => false
  | c :: cs => (c = '_' || isAlphabetic c) &&
    cs.all fun c => ['_', '.', '[', ']'].contains c || isAlphanumeric c

namespace Opening

/-- The opening of a group behind the sign in front of its name, and the rest. -/
def readNamed (fs : Flags) (cs : List Char) : Option (Opening × List Char) :=
  match cs.span (· ≠ '>') with
  | (name, _ :: rest) => if isGroupName name then some (.group fs [name], rest) else none
  | _ => none

/-- Flags behind a question mark, or the opening of a group with flags, and the rest. -/
def readFlags (fs : Flags) (cs : List Char) : Option (Opening × List Char) := do
  let (letters, rest) := cs.span fun c => c ≠ ':' && c ≠ ')'
  let fs ← fs.change? letters
  match rest with
  | ':' :: rest => some (.group fs [], rest)
  | ')' :: rest => if letters.isEmpty then none else some (.flags fs, rest)
  | _ => none

/-- What the parenthesis in front of a text opens, and the rest. -/
def read (fs : Flags) (cs : List Char) : Option (Opening × List Char) :=
  match fs.skip cs with
  | '?' :: 'P' :: '<' :: cs | '?' :: '<' :: cs => readNamed fs cs
  | '?' :: cs => readFlags fs cs
  | cs => some (.group fs [], cs)

end Opening

end AlgebraicModel.Logging.Pattern
