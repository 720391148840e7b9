import RegisterTables.Text.Blank

/-!
# What can be wrong with a TOML text

One constructor per kind of fault, and its wording. The first fault in reading order is the one that
is reported; faults in the structure of the tables are found only after all lines have been read.
-/

namespace RegisterTables.Toml

/-- Why a text is not TOML. -/
inductive Fault where
  /-- No token starts with this character. -/
  | unexpectedCharacter (c : Char)
  /-- A string may not hold this character as it is. -/
  | invalidCharacter (c : Char)
  /-- This character does not make an escape. -/
  | invalidEscape (c : Char)
  /-- This character stands where an escape wants a hexadecimal digit. -/
  | invalidHexDigit (c : Char)
  /-- No character has this code. -/
  | invalidCode (n : Nat)
  /-- The text ends within a string. -/
  | unterminatedString
  /-- Something else was wanted than was found. -/
  | expected (wanted found : String)
  /-- A key is a string of several lines. -/
  | multilineKey
  /-- The text ends where a value is wanted. -/
  | unexpectedEnd
  /-- A bare word stands where a value is wanted. -/
  | unquotedString
  /-- A number is not well formed, or out of range. -/
  | invalidNumber
  /-- A dotted key leads into a value that is not a table made by dotted keys. -/
  | dottedKeyExtendsValue
  /-- A table has two entries of one name. -/
  | duplicateKey (name : String)
  /-- A table has two headers. -/
  | tableRedefined (name : String)
  /-- A table that already has entries is to become an array. -/
  | tableRedefinedAsArray
deriving DecidableEq, Repr

/-- A phrase, a colon, and a character between backticks. -/
def Fault.aboutCharacter (phrase : String) (c : Char) : String :=
  phrase ++ ": `" ++ String.ofList (Text.shown c) ++ "`"

/-- The wording of a fault. -/
def Fault.message : Fault → String
  | unexpectedCharacter c => aboutCharacter "unexpected character found" c
  | invalidCharacter c => aboutCharacter "invalid character in string" c
  | invalidEscape c => aboutCharacter "invalid escape character in string" c
  | invalidHexDigit c => aboutCharacter "invalid hex escape character in string" c
  | invalidCode n => s!"invalid escape value: `{n}`"
  | unterminatedString => "unterminated string"
  | expected wanted found => s!"expected {wanted}, found {found}"
  | multilineKey => "multiline strings are not allowed for key"
  | unexpectedEnd => "unexpected eof encountered"
  | unquotedString => "invalid TOML value, did you mean to use a quoted string?"
  | invalidNumber => "invalid number"
  | dottedKeyExtendsValue => "dotted key attempted to extend non-table type"
  | duplicateKey name => s!"duplicate key: `{name}`"
  | tableRedefined name => s!"redefinition of table `{name}`"
  | tableRedefinedAsArray => "table redefined as array"

end RegisterTables.Toml
