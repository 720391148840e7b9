import RegisterTables.Catalogue.Parse
import RegisterTables.CommandLine.Arguments
import RegisterTables.Report.Markdown

/-!
# Responses to commands

What a command comes to, once the catalogue has been looked for: a text to print, a report to save,
or a failure. Nothing is printed or saved before this is settled, so a failure leaves no trace.
-/

namespace RegisterTables.CommandLine

/-- Why a command came to nothing. -/
inductive Failure where
  /-- The catalogue at a path, or the built-in one, cannot be read. -/
  | catalogue (path? : Option String) (e : Error)
  /-- The report cannot be built. -/
  | report (e : Error)
  /-- The file for the report cannot be created. -/
  | creating (path cause : String)
deriving DecidableEq, Repr

/-- The wording of a failure: what was being done, and what went wrong. -/
def Failure.message : Failure → String
  | catalogue (some path) e => s!"loading catalogue {path}: {e.report}"
  | catalogue none e => s!"loading the built-in catalogue: {e.report}"
  | report e => e.report
  | creating path cause => s!"creating {path}: {cause}"

/-- What a command comes to. -/
inductive Response where
  /-- A text for the standard output. -/
  | print (text : String)
  /-- A text for the file at a path. -/
  | save (path text : String)
  /-- A failure. -/
  | fail (failure : Failure)
deriving DecidableEq, Repr

/-- The labels of the environments, numbered from zero, one a line. -/
def environmentList (l : List Observation) : String :=
  String.join ((EnvironmentIndex.ofObservations l).labels.toList.zipIdx.map fun (label, i) =>
    s!"{i}. {label}\n")

/-- The registers, each with the number of environments that reported it, one a line. -/
def registerList (l : List Observation) : String :=
  String.join ((groupObservations l).map fun g => s!"{g.register} ({g.environments.length})\n")

namespace Action

/-- What an action on observations comes to. -/
def response (l : List Observation) : Action → Response
  | render output? options =>
    match (options.build l).result with
    | .error e => .fail (.report e)
    | .ok report =>
      match output? with
      | some path => .save path report.markdown
      | none => .print report.markdown
  | environments => .print (environmentList l)
  | registers => .print (registerList l)

end Action

/-- What a command comes to, given what loading its catalogue comes to. -/
def Command.response (c : Command) (loaded : Logged (List Observation)) : Response :=
  match loaded.result with
  | .ok l => c.action.response l
  | .error e => .fail (.catalogue c.catalogue? e)

end RegisterTables.CommandLine
