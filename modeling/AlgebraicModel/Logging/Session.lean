import AlgebraicModel.Logging.Files
import AlgebraicModel.Logging.Filter

/-!
# Switching logging on

Logging is switched on once. The filter comes from the call or else from the environment, the
format and the log file come from the environment, and they are looked at in that order.

## Main definitions

* `Logging.Environment`: the variables that the outcome depends on
* `Logging.Error`: why logging cannot be switched on
* `Logging.enable`: switch logging on
-/

namespace AlgebraicModel.Logging

/-- The variables of the environment that are looked at. -/
structure Environment where
  trace? : Option String := none
  format? : Option String := none
  file? : Option String := none

/-! ## Errors -/

inductive Error where
  | invalidFilter (filter : String)
  | invalidFormat (format : String)
  | fileUnavailable (path : String) (fault : FileFault)
deriving DecidableEq, Repr

namespace Error

def code : Error → String
  | invalidFilter _ => "LOG_INVALID_FILTER"
  | invalidFormat _ => "LOG_INVALID_FORMAT"
  | fileUnavailable .. => "LOG_FILE_UNAVAILABLE"

def detail : Error → String
  | invalidFilter filter => s!"Invalid log filter '{filter}': no list of directives"
  | invalidFormat format =>
    s!"Invalid SYMATH_LOG_FORMAT '{format}' (expected 'json' or 'pretty')"
  | fileUnavailable path fault => s!"Failed to open log file {path}: {fault.reason}"

def message (e : Error) : String :=
  s!"[{e.code}] {e.detail}"

end Error

/-! ## Switching on -/

inductive Format where
  | pretty
  | json
deriving DecidableEq, Repr

/-- A format by its name, in any case. -/
def Format.ofName (s : String) : Except Error Format :=
  if s.toLower = "pretty" then
    .ok .pretty
  else if s.toLower = "json" then
    .ok .json
  else
    .error (.invalidFormat s)

/-- How logging is set up. -/
structure Setup where
  filter : String
  format : Format
  file? : Option String
deriving DecidableEq, Repr

/-- The setup that a call asks for. Without a level the filter is that of the environment, or
`off`. -/
def setup (env : Environment) (files : Files) (level? : Option String) : Except Error Setup := do
  let filter := (level? <|> env.trace?).getD "off"
  if !isFilter filter then
    .error (.invalidFilter filter)
  let format ← Format.ofName (env.format?.getD "pretty")
  if let some path := env.file? then
    if let some fault := files.fault? path then
      .error (.fileUnavailable path fault)
  return ⟨filter, format, env.file?⟩

/-- Switch logging on, unless it is on. Gives the setup from then on, and whether it is new. -/
def enable (env : Environment) (files : Files) (current? : Option Setup)
    (level? : Option String) : Except Error (Setup × Bool) :=
  match current? with
  | some current => .ok (current, false)
  | none => do return (← setup env files level?, true)

end AlgebraicModel.Logging
