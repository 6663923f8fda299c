import AlgebraicModel.Config.Basic
import AlgebraicModel.Json.Token
import AlgebraicModel.Scalar.Double

/-!
# Configurations in JSON

A configuration is written as an object with the members `simplify_level` and
`coefficient_tolerance`, or as an array of the two values in that order. Either may be missing or
`null`, none may be given twice, and nothing else may be there.

## Main definitions

* `Config.Setting`: one option with its value
* `Config.ofTokens?`: the configuration that a list of tokens describes
* `Config.ofJson`: the configuration that a text describes, if it is valid
-/

namespace AlgebraicModel

open Json (Token)

def Simplification.ofName? : String → Option Simplification
  | "none" => some .off
  | "light" => some .light
  | _ => none

namespace Config

/-- An option with its value; no value leaves it unset. -/
inductive Setting where
  | level (chosen : Option Simplification)
  | tolerance (chosen : Option Float)

/-- A level: `null`, its name, or an object whose only member has its name and the value
`null`. -/
def readLevel : List Token → Option (Setting × List Token)
  | .null :: rest => some (.level none, rest)
  | .string s :: rest => return (.level (← Simplification.ofName? s), rest)
  | .leftBrace :: .string s :: .colon :: .null :: .rightBrace :: rest =>
    return (.level (← Simplification.ofName? s), rest)
  | _ => none

/-- A tolerance: `null` or a number. -/
def readTolerance : List Token → Option (Setting × List Token)
  | .null :: rest => some (.tolerance none, rest)
  | .number x :: rest => some (.tolerance x, rest)
  | _ => none

/-- The member of an object. -/
def readMember : List Token → Option (Setting × List Token)
  | .string "simplify_level" :: .colon :: rest => readLevel rest
  | .string "coefficient_tolerance" :: .colon :: rest => readTolerance rest
  | _ => none

/-- The configuration of two settings of different options. -/
def ofPair? : Setting → Setting → Option (Config Float)
  | .level l, .tolerance t => some ⟨l, t⟩
  | .tolerance t, .level l => some ⟨l, t⟩
  | _, _ => none

def ofSetting : Setting → Config Float
  | .level l => ⟨l, none⟩
  | .tolerance t => ⟨none, t⟩

/-- Up to two settings, with a comma between them, up to the closing token, which ends the
text. -/
def readSettings (first second : List Token → Option (Setting × List Token)) (close : Token)
    (ts : List Token) : Option (Config Float) := do
  if ts == [close] then
    return {}
  let (s, ts) ← first ts
  if ts == [close] then
    return ofSetting s
  match ts with
  | .comma :: ts =>
    let (s', ts) ← second ts
    if ts == [close] then ofPair? s s' else none
  | _ => none

/-- The configuration that a list of tokens describes. -/
def ofTokens? : List Token → Option (Config Float)
  | .leftBrace :: ts => readSettings readMember readMember .rightBrace ts
  | .leftBracket :: ts => readSettings readLevel readTolerance .rightBracket ts
  | _ => none

/-- The configuration that a text describes, if it is valid. -/
def ofJson (text : String) : Except (Fault Float) (Config Float) :=
  match Json.tokens? text >>= ofTokens? with
  | none => .error .unreadable
  | some c => do
    c.validate
    return c

end Config

end AlgebraicModel
