import AlgebraicModel.Text.Blank

/-!
# Flags of a pattern

A pattern is a regular expression for the value of a field. Flags decide how a part of it is read:
whether the case of letters counts, whether the part is in Unicode, and whether blanks and comments
in it are left out.

## Main definitions

* `Pattern.Flags`: the flags in force at a place of a pattern
* `Flags.change?`: the flags behind letters that set and clear some of them
* `Flags.skip`, `Flags.peek?`: what follows the blanks and comments at a place
-/

namespace AlgebraicModel.Logging.Pattern

open Text (isBlank)

structure Flags where
  ignoresCase : Bool := false
  unicode : Bool := true
  /-- Blanks and comments are left out. -/
  isSpaced : Bool := false

/-- A text without the blanks and comments in front of it. A comment ends with its line. -/
def dropBlanks : (inComment : Bool) → List Char → List Char
  | _, [] => []
  | inComment, c :: cs =>
    if inComment then dropBlanks (c ≠ '\n') cs
    else if isBlank c || c = '#' then dropBlanks (c = '#') cs
    else c :: cs

namespace Flags

/-! ## Changes -/

def set (fs : Flags) (value : Bool) : Char → Flags
  | 'i' => { fs with ignoresCase := value }
  | 'u' => { fs with unicode := value }
  | 'x' => { fs with isSpaced := value }
  | _ => fs

/-- A run of letters of flags: none is there twice, and a dash has a letter behind it. -/
def isChange (letters : List Char) : Bool :=
  letters.all ['i', 'm', 's', 'U', 'u', 'R', 'x', '-'].contains && letters.Nodup &&
    letters.getLast? ≠ some '-'

/-- Set the flags in front of a dash and clear those behind it. -/
def change? (fs : Flags) (letters : List Char) : Option Flags :=
  let (on, off) := letters.span (· ≠ '-')
  if isChange letters then
    some (off.foldl (·.set false ·) (on.foldl (·.set true ·) fs))
  else
    none

/-! ## Effects -/

/-- Letters can be told from one another, or their case can be ignored: case is known for ASCII
only. -/
def admitsLetters (fs : Flags) : Bool :=
  !(fs.ignoresCase && fs.unicode)

/-- A class can hold a character. Out of Unicode it holds ASCII characters only. -/
def admitsMember (fs : Flags) (c : Char) : Bool :=
  fs.admitsLetters && (fs.unicode || c.toNat < 0x80)

/-- The text behind the blanks and comments that are left out at its start. -/
def skip (fs : Flags) (cs : List Char) : List Char :=
  if fs.isSpaced then dropBlanks false cs else cs

/-- The character by which a dash in front of a text is judged. The first sign of a comment is left
out with the blanks around it, but the comment is not. -/
def peek? (fs : Flags) (cs : List Char) : Option Char :=
  if fs.isSpaced then
    match cs.dropWhile isBlank with
    | '#' :: cs => (cs.dropWhile isBlank).head?
    | cs => cs.head?
  else
    cs.head?

end Flags

end AlgebraicModel.Logging.Pattern
