import AlgebraicModel.Logging.Pattern.Flags
import AlgebraicModel.Text.Digit

/-!
# Atoms of a pattern

An atom is a character that stands for itself, or an escape. Sets of characters by a letter and the
ends of words are known for ASCII only, so they need a pattern that is not in Unicode.

## Main definitions

* `Pattern.Atom`: what a character or an escape stands for
* `Pattern.readEscape`, `Pattern.readAtom`: the atom at the start of a text
-/

namespace AlgebraicModel.Logging.Pattern

open Text (hexValue?)

inductive Atom where
  | char (c : Char)
  /-- A set of characters. -/
  | set
  /-- An assertion about a position. -/
  | assertion

/-- The number that so many hexadecimal digits behind a value make, and the rest. -/
def readHex (fs : Flags) : (digits value : Nat) → List Char → Option (Nat × List Char)
  | 0, value, cs => some (value, cs)
  | digits + 1, value, cs =>
    match fs.skip cs with
    | [] => none
    | c :: cs => do readHex fs digits (value * 16 + (← hexValue? c)) cs

/-- The character of so many hexadecimal digits below a bound, and the rest. -/
def readCodePoint (fs : Flags) (digits bound : Nat) (cs : List Char) :
    Option (Atom × List Char) := do
  let (value, cs) ← readHex fs digits 0 cs
  if value.isValidChar && value < bound then some (.char (Char.ofNat value), cs) else none

/-- The atom of a letter or a sign behind a backslash. Any ASCII sign can be escaped. -/
def Atom.ofEscape? (fs : Flags) : Char → Option Atom
  | 'd' | 's' | 'w' => if fs.unicode then none else some .set
  | 'A' | 'z' => some .assertion
  | 'b' | 'B' | '<' | '>' => if fs.unicode then none else some .assertion
  | 'a' => some (.char '\x07')
  | 'f' => some (.char '\x0c')
  | 'n' => some (.char '\n')
  | 'r' => some (.char '\r')
  | 't' => some (.char '\t')
  | 'v' => some (.char '\x0b')
  | c => if c.toNat < 0x80 && !c.isAlphanum then some (.char c) else none

/-- The atom behind a backslash, and the rest. A byte that is no ASCII character is in no text, so
out of Unicode two digits end below it. -/
def readEscape (fs : Flags) : List Char → Option (Atom × List Char)
  | [] => none
  | 'x' :: cs => readCodePoint fs 2 (if fs.unicode then 0x100 else 0x80) cs
  | 'u' :: cs => readCodePoint fs 4 0x10000 cs
  | 'U' :: cs => readCodePoint fs 8 0x110000 cs
  | c :: cs => return (← Atom.ofEscape? fs c, cs)

/-- The atom at the start of a text, and the rest. -/
def readAtom (fs : Flags) : List Char → Option (Atom × List Char)
  | [] => none
  | '\\' :: cs => readEscape fs cs
  | c :: cs => some (.char c, cs)

end AlgebraicModel.Logging.Pattern
