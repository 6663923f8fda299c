import AlgebraicModel.Logging.Pattern.Part
import AlgebraicModel.Text.Alphanumeric
import AlgebraicModel.Text.Blank
import AlgebraicModel.Text.Bytes

/-!
# Log filters

A filter is a list of directives with commas between them. A directive is a level on its own, or
a target and a span in brackets, of which one may be left out, and a level behind an equals sign,
which may be left out too. A span has a name and may have a field in braces.

## Main definitions

* `Logging.isLevel`, `isField`, `isDirective`: what a filter is made of
* `Logging.isFilter`: whether a text is a filter
-/

namespace AlgebraicModel.Logging

open Text (byteSize dropBytes isAlphanumeric isBlank takeBytes)

/-! ## Levels -/

def levelNames : List String :=
  ["off", "error", "warn", "info", "debug", "trace"]

/-- The number of a level, from `0` to `5`. A plus sign and zeros may stand in front. -/
def isLevelNumber (s : List Char) : Bool :=
  let digits := match s with
    | '+' :: ds => ds
    | ds => ds
  match digits.dropWhile (· = '0') with
  | [] => !digits.isEmpty
  | [d] => '1' ≤ d && d ≤ '5'
  | _ => false

/-- A level by its name, in any case, or by its number. -/
def isLevel (s : List Char) : Bool :=
  levelNames.contains (String.ofList s).toLower || isLevelNumber s

/-! ## Fields -/

def dropSign : List Char → List Char
  | '+' :: cs | '-' :: cs => cs
  | cs => cs

/-- Nothing, or the exponent of a number. -/
def isExponent : List Char → Bool
  | [] => true
  | 'e' :: cs | 'E' :: cs => !(dropSign cs).isEmpty && (dropSign cs).all Char.isDigit
  | _ => false

/-- A decimal number, with a digit in front of its point or behind it, or the name of a double that
is not finite. -/
def isNumber (s : List Char) : Bool :=
  let s := dropSign s
  let (whole, rest) := s.span Char.isDigit
  let (fraction, rest) := match rest with
    | '.' :: cs => cs.span Char.isDigit
    | cs => ([], cs)
  !(whole ++ fraction).isEmpty && isExponent rest ||
    ["inf", "infinity", "nan"].contains (String.ofList s).toLower

/-- A field of any name, with a number or a pattern behind an equals sign if there is one. What
follows a second equals sign is ignored. -/
def isField (s : List Char) : Bool :=
  !s.isEmpty && match s.dropWhile (· ≠ '=') with
    | [] => true
    | _ :: cs =>
      let value := cs.takeWhile (· ≠ '=')
      isNumber value || isPattern value

/-! ## Directives -/

/-- The characters that a target starts with; what follows is free. -/
def startsTarget (c : Char) : Bool :=
  isAlphanumeric c || c = '_' || c = ':' || c = '-'

def trimBlanks (s : List Char) : List Char :=
  ((s.dropWhile isBlank).reverse.dropWhile isBlank).reverse

/-- The rest of a directive behind its target and span, which starts at a place: nothing, or a
level behind an equals sign. -/
def isEnding (piece : List Char) (place : Nat) : List Char → Bool
  | [] => true
  | '=' :: _ => (dropBytes (place + 1) piece).isEmpty || isLevel (dropBytes (place + 1) piece)
  | _ => false

/-- The rest of a directive behind the opening bracket of its span, which starts at a place. -/
def isSpan (piece : List Char) (place : Nat) (rest : List Char) : Bool :=
  let name := rest.takeWhile fun c => c ≠ ']' && c ≠ '{'
  let place := place + byteSize name + 1
  match rest.drop name.length with
  | ']' :: rest => isEnding piece place rest
  | '{' :: rest =>
    let field := rest.takeWhile (· ≠ '}')
    let text := takeBytes (byteSize field) (dropBytes place piece)
    isField text && match rest.drop field.length with
      | '}' :: ']' :: rest => isEnding piece (place + byteSize field + 2) rest
      | _ => false
  | _ => false

/-- The parts of a directive are told apart without the blanks around it, but a level and a field
are taken from the same places, counted in bytes, of the piece with its blanks. So no level follows
blanks in front of a directive. -/
def isDirective (piece : List Char) : Bool :=
  match trimBlanks piece with
  | [] => false
  | '[' :: rest => isSpan piece 1 rest
  | c :: rest =>
    let target := rest.takeWhile fun c => c ≠ '=' && c ≠ '['
    startsTarget c && match rest.drop target.length with
      | '[' :: rest => isSpan piece (byteSize (c :: target) + 1) rest
      | rest => isEnding piece (byteSize (c :: target)) rest

/-! ## Filters -/

/-- Directives with commas between them, some of which may be empty. -/
def isFilter (s : String) : Bool :=
  (s.splitOn ",").all fun piece => piece.isEmpty || isDirective piece.toList

end AlgebraicModel.Logging
