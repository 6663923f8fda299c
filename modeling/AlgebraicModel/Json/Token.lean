import AlgebraicModel.Json.Number

/-!
# Tokens of JSON

## Main definitions

* `Json.Token`: the tokens
* `Json.readString`: the rest of a string, escapes resolved
* `Json.tokens?`: the tokens of a text
-/

namespace AlgebraicModel.Json

open Text (hexValue?)

inductive Token where
  | leftBrace
  | rightBrace
  | leftBracket
  | rightBracket
  | colon
  | comma
  | null
  | bool (b : Bool)
  | number (x : Float)
  | string (s : String)
deriving BEq, Repr

/-! ## Strings -/

/-- Four hexadecimal digits as a code unit. -/
def codeUnit? (a b c d : Char) : Option Nat :=
  [a, b, c, d].foldlM (fun n x => return n * 16 + (← hexValue? x)) 0

/-- The character of a single code unit, which is no half of a pair. -/
def ofUnit? (n : Nat) : Option Char :=
  if 0xd800 ≤ n ∧ n < 0xe000 then none else some (Char.ofNat n)

/-- The character of a pair of code units. -/
def ofPair? (high low : Nat) : Option Char :=
  if 0xd800 ≤ high ∧ high < 0xdc00 ∧ 0xdc00 ≤ low ∧ low < 0xe000 then
    some (Char.ofNat (0x10000 + (high - 0xd800) * 0x400 + (low - 0xdc00)))
  else
    none

/-- The character of an escape of one letter. -/
def ofLetter? : Char → Option Char
  | '"' => some '"'
  | '\\' => some '\\'
  | '/' => some '/'
  | 'b' => some '\x08'
  | 'f' => some '\x0c'
  | 'n' => some '\n'
  | 'r' => some '\r'
  | 't' => some '\t'
  | _ => none

/-- Put a character in front of the characters of a string that is being read. -/
def push (c : Char) (read : Option (List Char × List Char)) : Option (List Char × List Char) :=
  read.map fun (text, rest) => (c :: text, rest)

/-- The characters up to the closing quote, escapes resolved, and what follows it. -/
def readString : List Char → Option (List Char × List Char)
  | [] => none
  | '"' :: rest => some ([], rest)
  | '\\' :: 'u' :: a :: b :: c :: d :: '\\' :: 'u' :: e :: f :: g :: h :: rest =>
    match codeUnit? a b c d, codeUnit? e f g h with
    | some high, some low =>
      match ofUnit? high with
      | some x => push x (readString ('\\' :: 'u' :: e :: f :: g :: h :: rest))
      | none => ofPair? high low >>= fun x => push x (readString rest)
    | _, _ => none
  | '\\' :: 'u' :: a :: b :: c :: d :: rest =>
    codeUnit? a b c d >>= ofUnit? >>= fun x => push x (readString rest)
  | '\\' :: c :: rest => ofLetter? c >>= fun x => push x (readString rest)
  | c :: rest => if c < ' ' then none else push c (readString rest)

/-! ## Texts -/

def isBlank (c : Char) : Bool :=
  c = ' ' || c = '\n' || c = '\r' || c = '\t'

/-- The token at the start of a text that does not start with a blank, and the rest. -/
def readToken : List Char → Option (Token × List Char)
  | '{' :: cs => some (.leftBrace, cs)
  | '}' :: cs => some (.rightBrace, cs)
  | '[' :: cs => some (.leftBracket, cs)
  | ']' :: cs => some (.rightBracket, cs)
  | ':' :: cs => some (.colon, cs)
  | ',' :: cs => some (.comma, cs)
  | 'n' :: 'u' :: 'l' :: 'l' :: cs => some (.null, cs)
  | 't' :: 'r' :: 'u' :: 'e' :: cs => some (.bool true, cs)
  | 'f' :: 'a' :: 'l' :: 's' :: 'e' :: cs => some (.bool false, cs)
  | '"' :: cs => (readString cs).map fun (text, rest) => (.string (String.ofList text), rest)
  | cs => (readNumber cs).map fun (x, rest) => (.number x, rest)

/-- The tokens of a text; each takes a unit of fuel. -/
def readTokens : Nat → List Char → Option (List Token)
  | fuel, cs =>
    match fuel, cs.dropWhile isBlank with
    | _, [] => some []
    | 0, _ => none
    | fuel + 1, cs => do
      let (token, cs) ← readToken cs
      return token :: (← readTokens fuel cs)

/-- The tokens of a text. There are no more of them than characters. -/
def tokens? (text : String) : Option (List Token) :=
  readTokens text.length text.toList

end AlgebraicModel.Json
