import RegisterTables.Toml.Quote

/-!
# TOML tokens

A text is first cut into tokens. Line ends of two characters count as one, and a byte order mark at
the start is dropped. Blank runs and comments are tokens too, since in some places none may stand.

Where no token can be read, the last token of the list says why. A reader of tokens thus finds a
fault exactly when it gets to it.
-/

namespace RegisterTables.Toml

/-- A token. -/
inductive Token where
  /-- A run of spaces and tabs. -/
  | blank
  /-- The end of a line. -/
  | newline
  /-- A comment, without the end of its line. -/
  | comment
  /-- The sign `=`. -/
  | equals
  /-- The sign `.`. -/
  | period
  /-- The sign `,`. -/
  | comma
  /-- The sign `:`. -/
  | colon
  /-- The sign `+`. -/
  | plus
  /-- The sign that opens an inline table. -/
  | leftBrace
  /-- The sign that closes an inline table. -/
  | rightBrace
  /-- The sign that opens an array or a header. -/
  | leftBracket
  /-- The sign that closes an array or a header. -/
  | rightBracket
  /-- A run of ASCII letters, digits, hyphens and underscores. -/
  | word (text : List Char)
  /-- A string with its value. -/
  | string (value : List Char) (multiline : Bool)
  /-- What stands where no token can be read; nothing follows it. -/
  | invalid (fault : Fault)
deriving DecidableEq, Repr

namespace Token

/-- How messages call a token. -/
def name : Token → String
  | blank => "whitespace"
  | newline => "a newline"
  | comment => "a comment"
  | equals => "an equals"
  | period => "a period"
  | comma => "a comma"
  | colon => "a colon"
  | plus => "a plus"
  | leftBrace => "a left brace"
  | rightBrace => "a right brace"
  | leftBracket => "a left bracket"
  | rightBracket => "a right bracket"
  | word _ => "an identifier"
  | string _ false => "a string"
  | string _ true => "a multiline string"
  | invalid fault => fault.message

/-- Whether the character may stand in a word. -/
def isWordChar (c : Char) : Bool :=
  c.isAlphanum || c == '-' || c == '_'

/-- Whether the character may stand in a comment. -/
def isCommentChar (c : Char) : Bool :=
  c == '\t' || 0x20 ≤ c.toNat

/-- The token that is written as one sign. -/
def ofSign? : Char → Option Token
  | '\n' => some newline
  | '=' => some equals
  | '.' => some period
  | ',' => some comma
  | ':' => some colon
  | '+' => some plus
  | '{' => some leftBrace
  | '}' => some rightBrace
  | '[' => some leftBracket
  | ']' => some rightBracket
  | _ => none

/-- The kind of string that the mark opens. -/
def quoteOfMark? : Char → Option Quote
  | '"' => some .basic
  | '\'' => some .literal
  | _ => none

/-- Reads the token that starts with `c` and goes on with what it needs of `cs`. -/
def read (c : Char) (cs : List Char) : Except Fault (Token × List Char) :=
  if Quote.isIndent c then .ok (blank, cs.dropWhile Quote.isIndent)
  else if c = '#' then .ok (comment, cs.dropWhile isCommentChar)
  else if isWordChar c then .ok (word (c :: cs.takeWhile isWordChar), cs.dropWhile isWordChar)
  else
    match ofSign? c, quoteOfMark? c with
    | some t, _ => .ok (t, cs)
    | none, some q =>
      (q.read cs).map fun ((value, multiline), rest) => (string value multiline, rest)
    | none, none => .error (.unexpectedCharacter c)

theorem length_read {c : Char} {t : Token} {cs rest : List Char}
    (h : read c cs = .ok (t, rest)) : rest.length ≤ cs.length := by
  unfold read at h
  split at h
  · simp only [Except.ok.injEq, Prod.mk.injEq] at h
    exact h.2 ▸ Quote.length_dropWhile_le _ _
  · split at h
    · simp only [Except.ok.injEq, Prod.mk.injEq] at h
      exact h.2 ▸ Quote.length_dropWhile_le _ _
    · split at h
      · simp only [Except.ok.injEq, Prod.mk.injEq] at h
        exact h.2 ▸ Quote.length_dropWhile_le _ _
      · split at h
        · simp only [Except.ok.injEq, Prod.mk.injEq] at h
          simp [h.2]
        · rename_i q _ _
          cases hq : q.read cs with
          | error fault => simp [hq, Except.map] at h
          | ok pair =>
            obtain ⟨content, tail⟩ := pair
            simp only [hq, Except.map, Except.ok.injEq, Prod.mk.injEq] at h
            exact h.2 ▸ Nat.le_of_lt (Quote.length_read hq)
        · simp at h

/-- The tokens of a text. -/
def ofChars (cs : List Char) : List Token :=
  match cs with
  | [] => []
  | c :: cs =>
    match _ : read c cs with
    | .error fault => [invalid fault]
    | .ok (t, rest) => t :: ofChars rest
termination_by cs.length
decreasing_by
  rename_i h
  have := length_read h
  simp only [List.length_cons]
  omega

/-- Writes every line end as one character. A carriage return that no line feed follows stays. -/
def unifyLineEnds : List Char → List Char
  | [] => []
  | '\r' :: '\n' :: cs => '\n' :: unifyLineEnds cs
  | c :: cs => c :: unifyLineEnds cs

/-- Drops a byte order mark at the start. -/
def dropByteOrderMark : List Char → List Char
  | '\ufeff' :: cs => cs
  | cs => cs

/-- The tokens of a text. -/
def ofText (text : String) : List Token :=
  ofChars (unifyLineEnds (dropByteOrderMark text.toList))

end Token

/-- A token with its place in its text. -/
structure Lexeme where
  /-- The token. -/
  token : Token
  /-- The number of tokens before it. -/
  place : Nat
deriving DecidableEq, Repr

/-- The tokens of a text with their places. -/
def lexemes (text : String) : List Lexeme :=
  (Token.ofText text).zipIdx.map fun (t, i) => ⟨t, i⟩

end RegisterTables.Toml
