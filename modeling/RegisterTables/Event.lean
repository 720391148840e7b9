import RegisterTables.Error
import RegisterTables.Text.Quoted

/-!
# Events

What the library logs. An operation that logs answers with a `Logged` value: its result and the
events, in order, also those before a failure. Nothing else depends on the events, so a caller may
drop them.
-/

namespace RegisterTables

/-- How serious an event is. -/
inductive Event.Level where
  /-- Of use when looking for a fault. -/
  | debug
  /-- Something was dropped, hidden or filled in. -/
  | warn
deriving DecidableEq, Repr

/-- The value of an attribute of an event. -/
inductive Event.Value where
  /-- A number of things. -/
  | count (n : Nat)
  /-- A text. -/
  | text (s : String)
deriving DecidableEq, Repr

/-- Something worth logging. -/
inductive Event where
  /-- A catalogue was read in full. -/
  | loadedCatalogue (origin : String) (environments observations : Nat)
  /-- The observations were grouped; registers and environments are counted without repeats. -/
  | groupedObservations (observations registers environments : Nat)
  /-- An observation lacks names of the register's first observation, or has others beside. -/
  | fieldSetDiffers (register environment : String) (missing extra : List String)
  /-- An environment reported a register again. -/
  | environmentRepeated (register environment : String)
deriving DecidableEq, Repr

namespace Event

/-- How serious the event is: the ones about single observations are warnings. -/
def level : Event → Level
  | loadedCatalogue .. | groupedObservations .. => .debug
  | fieldSetDiffers .. | environmentRepeated .. => .warn

/-- The message of the event. -/
def message : Event → String
  | loadedCatalogue .. => "loaded catalogue"
  | groupedObservations .. => "grouped observations"
  | fieldSetDiffers .. => "field set differs from the first observation"
  | environmentRepeated .. => "environment reported the register more than once"

/-- The attributes of the event, by name. -/
def attributes : Event → List (String × Value)
  | loadedCatalogue origin environments observations =>
    [("origin", .text origin), ("environments", .count environments),
     ("observations", .count observations)]
  | groupedObservations observations registers environments =>
    [("observations", .count observations), ("registers", .count registers),
     ("environments", .count environments)]
  | fieldSetDiffers register environment missing extra =>
    [("register", .text register), ("environment", .text environment),
     ("missing", .text (Text.quotedList missing)), ("extra", .text (Text.quotedList extra))]
  | environmentRepeated register environment =>
    [("register", .text register), ("environment", .text environment)]

end Event

/-- The answer of an operation that may fail, with what it logged until then. -/
structure Logged (α : Type) where
  /-- The value, or why there is none. -/
  result : Except Error α
  /-- The events, in order. -/
  events : List Event

end RegisterTables
