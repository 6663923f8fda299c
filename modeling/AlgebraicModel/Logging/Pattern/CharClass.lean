import AlgebraicModel.Logging.Pattern.Atom
import AlgebraicModel.Logging.Pattern.Depth

/-!
# Classes of characters

A class stands between brackets. It has items side by side, which are characters, ranges, sets,
names and classes, and operators between rows of items, which are all of one rank and go from left
to right. A class that is not in Unicode is not negated.

## Main definitions

* `Pattern.readItem`, `Pattern.readName`: the items that hold no class
* `Pattern.readOpening`: the start of a class, where some signs have a meaning of their own
* `Pattern.readRows`, `Pattern.readClass`: a class and its depth
-/

namespace AlgebraicModel.Logging.Pattern

/-! ## Items -/

/-- An atom can be an item of a class. -/
def Atom.isItem (fs : Flags) : Atom → Bool
  | char c => fs.admitsMember c
  | set => true
  | assertion => false

/-- Two atoms can be the ends of a range. -/
def Atom.isRange (fs : Flags) : Atom → Atom → Bool
  | char a, char b => a ≤ b && fs.admitsMember a && fs.admitsMember b
  | _, _ => false

/-- The rest behind a character, a range or a set. A dash makes no range in front of a closing
bracket or another dash. -/
def readItem (fs : Flags) (cs : List Char) : Option (List Char) := do
  let (first, cs) ← readAtom fs cs
  let single := if first.isItem fs then some cs else none
  match fs.skip cs with
  | '-' :: rest =>
    if [some ']', some '-'].contains (fs.peek? rest) then
      single
    else
      let (last, cs) ← readAtom fs (fs.skip rest)
      if first.isRange fs last then some cs else none
  | _ => single

def classNames : List String :=
  ["alnum", "alpha", "ascii", "blank", "cntrl", "digit", "graph", "lower", "print", "punct",
   "space", "upper", "word", "xdigit"]

/-- The name of a class between colons, behind a bracket: whether it is negated, and the rest. -/
def readName : List Char → Option (Bool × List Char)
  | ':' :: cs =>
    let (isNegated, cs) := match cs with
      | '^' :: cs => (true, cs)
      | cs => (false, cs)
    let (name, rest) := cs.span Char.isLower
    match rest with
    | ':' :: ']' :: rest =>
      if classNames.contains (String.ofList name) then some (isNegated, rest) else none
    | _ => none
  | _ => none

/-! ## Classes -/

/-- The rest behind dashes, each of which takes a unit of fuel, and their depths as items. -/
def readDashes (fs : Flags) : (fuel : Nat) → List Char → List Nat × List Char
  | fuel + 1, '-' :: cs =>
    let (items, cs) := readDashes fs fuel (fs.skip cs)
    (0 :: items, cs)
  | _, cs => ([], cs)

/-- The first items of a class, behind its bracket and the caret that negates it: dashes, or else a
closing bracket. -/
def readOpening (fs : Flags) (cs : List Char) : Option (List Nat × List Char) := do
  let cs ← match fs.skip cs with
    | '^' :: cs => if fs.unicode then some (fs.skip cs) else none
    | cs => some cs
  let (items, cs) ← match readDashes fs cs.length cs with
    | ([], ']' :: cs) => some ([0], cs)
    | start => some start
  if items.isEmpty || fs.admitsLetters then some (items, cs) else none

/-- The depth of the rows of a class up to one of certain items. -/
def depthOfRows (rows? : Option Nat) (items : List Nat) : Nat :=
  depthOf (depthOf items :: rows?.toList)

/-- The depth of the rows of a class, and the rest behind its closing bracket. The depths of the
rows read so far and of the items of the last row, latest first, are given; each item and each
operator takes a unit of fuel. -/
def readRows (fs : Flags) : (fuel : Nat) → (rows? : Option Nat) → (items : List Nat) →
    List Char → Option (Nat × List Char)
  | 0, _, _, _ => none
  | fuel + 1, rows?, items, cs =>
    match fs.skip cs with
    | [] => none
    | ']' :: cs => some (depthOfRows rows? items, cs)
    | '&' :: '&' :: cs | '-' :: '-' :: cs | '~' :: '~' :: cs =>
      readRows fs fuel (some (depthOfRows rows? items)) [] cs
    | '[' :: cs =>
      match readName cs with
      | some (isNegated, cs) =>
        if fs.admitsLetters && (fs.unicode || !isNegated) then
          readRows fs fuel rows? (0 :: items) cs
        else
          none
      | none => do
        let (first, cs) ← readOpening fs cs
        let (inner, cs) ← readRows fs fuel none first cs
        readRows fs fuel rows? ((1 + inner) :: items) cs
    | cs => do readRows fs fuel rows? (0 :: items) (← readItem fs cs)

/-- The depth of the class behind an opening bracket, and the rest. -/
def readClass (fs : Flags) (cs : List Char) : Option (Nat × List Char) := do
  let (first, rest) ← readOpening fs cs
  let (inner, rest) ← readRows fs (cs.length + 1) none first rest
  return (1 + inner, rest)

end AlgebraicModel.Logging.Pattern
