import RegisterTables.CommandLine.Run

/-!
# The program

`CommandLine.perform` on the files of the system, which is all that is added here.
-/

namespace RegisterTables

open CommandLine

/-- The code of the system for a directory in the place of a file; it may come with a minus sign. -/
def isDirectoryCode (code : UInt32) : Bool :=
  code == 21 || code == -21

/-- The wording of an error of the system. -/
def systemMessage : IO.Error → String
  | .noFileOrDirectory .. => FileError.notFound.message
  | .permissionDenied .. => "Permission denied (os error 13)"
  | .inappropriateType _ code _ =>
    if isDirectoryCode code then FileError.isDirectory.message else FileError.notDirectory.message
  | e => toString e

/-- The files of the system. -/
def fileSystem : System IO where
  read path := do
    try
      return .ok (← IO.FS.readBinFile path)
    catch e => return .error (systemMessage e)
  save path text := do
    try
      IO.FS.writeFile path text
      return .ok ()
    catch e => return .error (systemMessage e)

end RegisterTables

/-- Runs the program and answers with its status. -/
def main (arguments : List String) : IO UInt32 := do
  let ending ← RegisterTables.CommandLine.perform RegisterTables.fileSystem arguments
  IO.print ending.output
  IO.eprint ending.errors
  return ending.status.toUInt32
