import AlgebraicModel.Logging.Pattern.CharClass
import AlgebraicModel.Logging.Pattern.Group

/-!
# Parts of a pattern

A pattern has alternatives, which have items one after the other, which are atoms, classes and
groups with repetitions behind them. Braces that count repetitions are not offered.

## Main definitions

* `Pattern.Part`: what is known of a part of a pattern
* `Pattern.readAlternatives`: the alternatives of a pattern or a group
* `isPattern`: whether a text is a pattern
-/

namespace AlgebraicModel.Logging

namespace Pattern

/-- The depth of a part of a pattern, and the names of the groups in it. -/
structure Part where
  depth : Nat
  names : List (List Char)

namespace Part

/-- A part with a certain depth and no names. -/
def plain (depth : Nat) : Part :=
  ⟨depth, []⟩

/-- A row of parts. -/
def row (parts : List Part) : Part :=
  ⟨depthOf (parts.map depth), parts.flatMap names⟩

/-- A part inside of a group, which may have a name. -/
def inGroup (part : Part) (names : List (List Char)) : Part :=
  ⟨1 + part.depth, names ++ part.names⟩

/-- The part with the repetitions that follow, each of which takes a unit of fuel, and the rest. A
question mark directly behind a repetition makes it a lazy one. -/
def readRepetitions (fs : Flags) : (fuel : Nat) → Part → List Char → Part × List Char
  | 0, part, cs => (part, cs)
  | fuel + 1, part, cs =>
    match fs.skip cs with
    | c :: rest =>
      if ['*', '+', '?'].contains c then
        let rest := match rest with
          | '?' :: rest => rest
          | rest => rest
        readRepetitions fs fuel { part with depth := 1 + part.depth } rest
      else
        (part, c :: rest)
    | [] => (part, [])

end Part

/-- The rest behind an item that is neither a class nor a group. -/
def readSimple (fs : Flags) : List Char → Option (List Char)
  | '*' :: _ | '+' :: _ | '?' :: _ | '{' :: _ => none
  | '^' :: cs | '$' :: cs => some cs
  | '.' :: cs => if fs.unicode then some cs else none
  | cs => do
    match ← readAtom fs cs with
    | (.char _, cs) => if fs.admitsLetters then some cs else none
    | (_, cs) => some cs

/-- The alternatives up to a closing parenthesis or the end of a text, and the rest. The
alternatives read so far and the items of the last one, latest first, are given; each item, each
repetition and each bar takes a unit of fuel. -/
def readAlternatives : (fuel : Nat) → Flags → (alternatives items : List Part) → List Char →
    Option (Part × List Char)
  | 0, _, _, _, _ => none
  | fuel + 1, fs, alternatives, items, cs =>
    let after (part : Part) (cs : List Char) : Option (Part × List Char) :=
      let (part, cs) := part.readRepetitions fs fuel cs
      readAlternatives fuel fs alternatives (part :: items) cs
    match fs.skip cs with
    | [] => some (.row (.row items :: alternatives), [])
    | ')' :: cs => some (.row (.row items :: alternatives), ')' :: cs)
    | '|' :: cs => readAlternatives fuel fs (.row items :: alternatives) [] cs
    | '[' :: cs => do
      let (depth, cs) ← readClass fs cs
      after (.plain depth) cs
    | '(' :: cs => do
      match ← Opening.read fs cs with
      | (.flags fs, cs) => readAlternatives fuel fs alternatives (.plain 0 :: items) cs
      | (.group inner names, cs) =>
        match ← readAlternatives fuel inner [] [] cs with
        | (part, ')' :: cs) => after (part.inGroup names) cs
        | _ => none
    | cs => do after (.plain 0) (← readSimple fs cs)

end Pattern

/-- The text is a pattern that is not too deep and has no two groups of one name. -/
def isPattern (text : List Char) : Bool :=
  match Pattern.readAlternatives (text.length + 1) {} [] [] text with
  | some (part, []) => part.depth ≤ Pattern.maxDepth && part.names.Nodup
  | _ => false

end AlgebraicModel.Logging
