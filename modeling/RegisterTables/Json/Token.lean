import RegisterTables.Json.Number
import RegisterTables.Json.Text

/-!
# JSON tokens

A text is first cut into tokens. Nothing depends on the blanks between them.
-/

namespace RegisterTables.Json

/-- A token. -/
inductive Token where
  /-- The sign that opens an object. -/
  | leftBrace
  /-- The sign that closes an object. -/
  | rightBrace
  /-- The sign that opens an array. -/
  | leftBracket
  /-- The sign that closes an array. -/
  | rightBracket
  /-- The sign between a name and its value. -/
  | colon
  /-- The sign between members or items. -/
  | comma
  /-- The word `null`. -/
  | null
  /-- One of the words `true` and `false`. -/
  | bool (value : Bool)
  /-- A number. -/
  | number (n : Number)
  /-- A string. -/
  | string (units : List TextUnit)
deriving DecidableEq, Repr

namespace Token

/-- Whether the character may stand between tokens. -/
def isBlank (c : Char) : Bool :=
  c == ' ' || c == '\t' || c == '\n' || c == '\r'

/-- Reads a token. -/
def read? : List Char → Option (Token × List Char)
  | '{' :: cs => some (leftBrace, cs)
  | '}' :: cs => some (rightBrace, cs)
  | '[' :: cs => some (leftBracket, cs)
  | ']' :: cs => some (rightBracket, cs)
  | ':' :: cs => some (colon, cs)
  | ',' :: cs => some (comma, cs)
  | '"' :: cs => (TextUnit.read? cs).map fun (units, rest) => (string units, rest)
  | 'n' :: 'u' :: 'l' :: 'l' :: cs => some (null, cs)
  | 't' :: 'r' :: 'u' :: 'e' :: cs => some (bool true, cs)
  | 'f' :: 'a' :: 'l' :: 's' :: 'e' :: cs => some (bool false, cs)
  | cs => (Number.read? cs).map fun (n, rest) => (number n, rest)

theorem length_read? {cs rest : List Char} {t : Token} (h : read? cs = some (t, rest)) :
    rest.length < cs.length := by
  unfold read? at h
  split at h
  case h_7 =>
    obtain ⟨⟨units, r⟩, hr, he⟩ := Option.map_eq_some_iff.1 h
    simp only [Prod.mk.injEq] at he
    have := TextUnit.length_read? hr
    simp only [← he.2, List.length_cons]
    omega
  case h_11 =>
    obtain ⟨⟨n, r⟩, hr, he⟩ := Option.map_eq_some_iff.1 h
    simp only [Prod.mk.injEq] at he
    exact he.2 ▸ Number.length_read? hr
  all_goals
    simp only [Option.some.injEq, Prod.mk.injEq] at h
    simp only [← h.2, List.length_cons]
    omega

/-- The tokens of a text, if it consists of tokens and blanks. -/
def ofChars? (cs : List Char) : Option (List Token) :=
  match cs with
  | [] => some []
  | c :: cs =>
    if isBlank c then ofChars? cs
    else
      match _ : read? (c :: cs) with
      | none => none
      | some (t, rest) => do return t :: (← ofChars? rest)
termination_by cs.length
decreasing_by
  · simp
  · rename_i h
    exact length_read? h

end Token

end RegisterTables.Json
