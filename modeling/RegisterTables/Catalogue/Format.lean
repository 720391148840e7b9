import RegisterTables.Path

/-!
# Catalogue formats

A catalogue is a text in one of two formats, told apart by the extension of its file. The formats
differ in the words that they use for the same things.
-/

namespace RegisterTables.Catalogue

/-- A format of catalogues. -/
inductive Format where
  /-- Tables under headers. -/
  | toml
  /-- Objects within each other. -/
  | json
deriving DecidableEq, Repr

namespace Format

/-- The format that the file at a path is taken to have. The extension `json`, in letters of either
case, is the only one that counts. -/
def ofPath (path : String) : Format :=
  match (Path.fileName? path.toList).bind Path.extension? with
  | some extension => if extension.map Char.toLower = ['j', 's', 'o', 'n'] then json else toml
  | none => toml

/-- The member that holds the list of environments. -/
def environmentsKey : Format → String
  | toml => "environment"
  | json => "environments"

/-- The member that holds the label of an environment. -/
def labelKey : Format → String
  | toml => "name"
  | json => "env"

/-- The member that holds the list of registers of an environment. -/
def registersKey : Format → String
  | toml => "register"
  | json => "registers"

/-- What a list of named values is called. -/
def tableWord : Format → String
  | toml => "table"
  | json => "object"

end Format

/-- The member that holds the name of a register, in either format. -/
def nameKey : String := "name"

end RegisterTables.Catalogue
