import RegisterTables.CommandLine.Response
import RegisterTables.FileTree

/-!
# Runs of the program

What the program does, it does by reading files and saving them, on whatever system it is given
(`perform`). On a file tree this makes a run: it takes an argument list and a tree, and ends with a
status, two texts and a tree (`run`).
-/

namespace RegisterTables.CommandLine

/-- How a run ends. -/
inductive Ending where
  /-- Help was asked for. -/
  | help
  /-- The arguments make no sense. -/
  | usage
  /-- The command was carried out; the text goes to the standard output. -/
  | done (text : String)
  /-- The command came to nothing. -/
  | failed (failure : Failure)
deriving DecidableEq, Repr

/-- The text about how to use the program. What has to be said is settled by the arguments that
there are; the wording is free. -/
def helpText : String :=
  "Usage: registertables [--catalogue PATH] [COMMAND]

Compare snapshots of system registers across environments.

Options:
  --catalogue PATH  catalogue file (.toml or .json); the built-in one if absent
  --help            show this text

Commands:
  render            write the report as Markdown (default)
    --output PATH     write it to this file
    --title TEXT      title of the report
    --source-order    fill cells in the order of the catalogue
    --differing-only  leave out fields whose value is the same everywhere
    --register NAME   include only this register; may be repeated
  environments      list all environments
  registers         list all registers with the number of their environments
"

/-- The text about arguments that make no sense, whatever is wrong with them. The wording is free. -/
def usageText : String :=
  "The arguments make no sense.
Run with --help for more information.
"

namespace Ending

/-- The status of the program. -/
def status : Ending → Nat
  | help => 0
  | usage => 1
  | done _ => 0
  | failed _ => 1

/-- The text on the standard output. -/
def output : Ending → String
  | help => helpText
  | usage => ""
  | done text => text
  | failed _ => ""

/-- The text on the standard error output, apart from the log. By default the warnings of a build
are written there too, each on a line with the time; they are the events of `ReportOptions.build`,
and a run leaves them out. -/
def errors : Ending → String
  | help => ""
  | usage => usageText
  | done _ => ""
  | failed failure => failure.message ++ "\n"

end Ending

/-! ### Performing -/

/-- What the program asks of the system that it runs on. -/
structure System (m : Type → Type) where
  /-- What the file at a path holds, or the wording of why it cannot be read. -/
  read (path : String) : m (Except String ByteArray)
  /-- Makes a text what the file at a path holds, or tells the wording of why the file cannot be
  created. -/
  save (path text : String) : m (Except String Unit)

section

variable {m : Type → Type} [Monad m] (system : System m)

/-- Loads the catalogue that a command names, or the built-in one. -/
def Command.load (c : Command) : m (Logged (List Observation)) := do
  match c.catalogue? with
  | some path => return Catalogue.parseFile path (← system.read path)
  | none => return Catalogue.builtin

/-- Carries out a response. -/
def Response.carryOut : Response → m Ending
  | print text => return .done text
  | save path text => do
    match ← system.save path text with
    | .ok () => return .done ""
    | .error cause => return .failed (.creating path cause)
  | fail failure => return .failed failure

/-- Does what the arguments ask for. -/
def perform (arguments : List String) : m Ending := do
  match Request.ofArguments arguments with
  | .help => return .help
  | .invalid => return .usage
  | .run command => (command.response (← command.load system)).carryOut system

end

/-! ### Runs on a file tree -/

/-- What the file at a path holds, or the wording of why it cannot be read. -/
def contents (files : FileTree) (path : String) : Except String ByteArray :=
  (files.read path).mapError FileError.message

/-- A file tree as the system that the program runs on. -/
def treeSystem : System (StateM FileTree) where
  read path := return contents (← get) path
  save path text := modifyGet fun files =>
    match files.write path text.toUTF8 with
    | .ok files' => (.ok (), files')
    | .error e => (.error e.message, files)

/-- A run of the program. -/
def run (arguments : List String) (files : FileTree) : Ending × FileTree :=
  ((perform treeSystem arguments).run files).run

end RegisterTables.CommandLine
