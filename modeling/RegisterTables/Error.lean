/-!
# Errors

Why a catalogue could not be read or a report could not be built. The constructors are the causes;
their wording is in `Error.message` alone.
-/

namespace RegisterTables

/-- Why there are no observations, or no report. -/
inductive Error where
  /-- The file at `path` cannot be read, because of `cause`. -/
  | unreadable (path cause : String)
  /-- The text from `origin` is not in its format. -/
  | unparsable (origin detail : String)
  /-- An entry is not an observation; `index` counts the observations before it, from zero. -/
  | malformedObservation (index : Nat) (reason : String)
  /-- No observation is of the register that was asked for. -/
  | unknownRegister (register : String)
deriving DecidableEq, Repr

namespace Error

/-- The message of an error. -/
def message : Error → String
  | unreadable path cause => s!"failed to read {path}: {cause}"
  | unparsable origin detail => s!"failed to parse {origin}: {detail}"
  | malformedObservation index reason => s!"malformed observation #{index}: {reason}"
  | unknownRegister register => s!"unknown register: {register}"

/-- The underlying cause, where there is one. -/
def cause? : Error → Option String
  | unreadable _ cause => some cause
  | _ => none

/-- The message, followed by that of the underlying cause. -/
def report (e : Error) : String :=
  match e.cause? with
  | some cause => s!"{e.message}: {cause}"
  | none => e.message

end Error

end RegisterTables
