import RegisterTables.Text.Hidden

/-!
# Quoted text

Messages quote a name so that it can be read back from them: double quotes around it, the usual
letters after a backslash for the common control characters, and the code of a character that
would not be seen or would attach to the one before it. An apostrophe stands for itself.
-/

namespace RegisterTables.Text

/-- A character as it stands between the quotes. -/
def quotedChar (c : Char) : List Char :=
  match c with
  | '\x00' => ['\\', '0']
  | '\t' => ['\\', 't']
  | '\n' => ['\\', 'n']
  | '\r' => ['\\', 'r']
  | '"' => ['\\', '"']
  | '\\' => ['\\', '\\']
  | c => if isHidden c then codeEscape c else [c]

/-- A text in double quotes. -/
def quoted (s : String) : String :=
  String.ofList ('"' :: s.toList.flatMap quotedChar ++ ['"'])

/-- Texts in double quotes, separated by commas, in brackets. -/
def quotedList (l : List String) : String :=
  "[" ++ ", ".intercalate (l.map quoted) ++ "]"

end RegisterTables.Text
