import RegisterTables.Toml.Number

/-!
# The syntax of TOML

A document is a body of entries and a list of blocks, each a header with a body of its own. Reading
it checks the grammar only; what the headers and dotted keys add up to is settled by `Toml.Table`.
The one exception is a dotted key that leads into a value: that is a fault of its line.

The entries of dotted keys with a common start are put together when they are read: `a.b = 1` and
`a.c = 2` make one entry `a`, whose value is the group of `b` and `c`.
-/

namespace RegisterTables.Toml

/-- A key, or one part of a dotted key. -/
structure Key where
  /-- The name. -/
  name : String
  /-- The place of the key among the tokens of the text. -/
  place : Nat
deriving DecidableEq, Repr

/-- A value as it is written. -/
inductive Expr where
  /-- A string. -/
  | string (value : String)
  /-- A truth value. -/
  | bool (value : Bool)
  /-- A number, by its spelling. -/
  | number (text : String)
  /-- An array. -/
  | array (items : List Expr)
  /-- A table between braces. -/
  | inline (body : List (Key × Expr))
  /-- The entries of dotted keys that have this part in common. -/
  | group (body : List (Key × Expr))
deriving Repr

/-- Entries in the order in which they were written. -/
abbrev Body := List (Key × Expr)

/-! ### Dotted keys -/

/-- Changes the group of a key, or adds a new one at the end. -/
def Body.alterGroup (key : Key) (f : Body → Except Fault Body) : Body → Except Fault Body
  | [] => do return [(key, .group (← f []))]
  | (k, e) :: body =>
    if k.name = key.name then
      match e with
      | .group inner => do return (k, .group (← f inner)) :: body
      | _ => .error .dottedKeyExtendsValue
    else do return (k, e) :: (← alterGroup key f body)

/-- Adds a value under a key of one or more parts. -/
def Body.insert (value : Expr) : List Key → Body → Except Fault Body
  | [], body => .ok body
  | [key], body => .ok (body ++ [(key, value)])
  | key :: path, body => body.alterGroup key (Body.insert value path)

/-! ### Single tokens -/

/-- The token that is found, as messages call it. -/
def foundName : List Lexeme → String
  | [] => "eof"
  | t :: _ => t.token.name

/-- What is wrong where something else is wanted: a token that cannot be read is the fault itself.
-/
def unexpected (wanted : String) : List Lexeme → Fault
  | ⟨.invalid fault, _⟩ :: _ => fault
  | ts => .expected wanted (foundName ts)

/-- Reads exactly this token. -/
def expect (token : Token) (ts : List Lexeme) : Except Fault (List Lexeme) :=
  match ts with
  | t :: rest => if t.token = token then .ok rest else .error (unexpected token.name ts)
  | [] => .error (unexpected token.name ts)

/-- Drops spaces and tabs. -/
def skipBlank : List Lexeme → List Lexeme
  | ⟨.blank, _⟩ :: ts => ts
  | ts => ts

/-- Reads the end of a line, or of the text. -/
def lineEnd : List Lexeme → Except Fault (List Lexeme)
  | [] => .ok []
  | ⟨.newline, _⟩ :: ts => .ok ts
  | ts => .error (unexpected "newline" ts)

/-- Reads the end of a line with what may stand in front of it: blanks and a comment. -/
def blankLineEnd (ts : List Lexeme) : Except Fault (List Lexeme) :=
  match skipBlank ts with
  | ⟨.comment, _⟩ :: ts => lineEnd ts
  | ts => lineEnd ts

/-- Drops blanks, comments and line ends. A comment reaches to the end of its line. -/
def skipLines : List Lexeme → Except Fault (List Lexeme)
  | ⟨.blank, _⟩ :: ts => skipLines ts
  | ⟨.newline, _⟩ :: ts => skipLines ts
  | [⟨.comment, _⟩] => .ok []
  | ⟨.comment, _⟩ :: ⟨.newline, _⟩ :: ts => skipLines ts
  | ⟨.comment, _⟩ :: t :: ts => .error (unexpected "newline" (t :: ts))
  | ts => .ok ts

/-! ### Keys -/

mutual

/-- Reads a key of one or more parts, with blanks around each part. -/
def keyPath : List Lexeme → Except Fault (List Key × List Lexeme)
  | ⟨.blank, _⟩ :: ts => keyPath ts
  | ⟨.word text, place⟩ :: ts => keyPathAfter ⟨String.ofList text, place⟩ ts
  | ⟨.string value false, place⟩ :: ts => keyPathAfter ⟨String.ofList value, place⟩ ts
  | ⟨.string _ true, _⟩ :: _ => .error .multilineKey
  | ts => .error (unexpected "a table key" ts)

/-- Reads the parts that follow a part of a key. -/
def keyPathAfter (key : Key) : List Lexeme → Except Fault (List Key × List Lexeme)
  | ⟨.blank, _⟩ :: ts => keyPathAfter key ts
  | ⟨.period, _⟩ :: ts => do
    let (path, ts) ← keyPath ts
    return (key :: path, ts)
  | ⟨.invalid fault, _⟩ :: _ => .error fault
  | ts => .ok ([key], ts)

end

/-! ### Values -/

/-- Whether a number may start with this word. -/
def startsNumber (word : List Char) : Bool :=
  word = "inf".toList || word = "nan".toList ||
    match word.head? with
    | some c => c == '-' || c.isDigit
    | none => false

/-- Reads a number as a value. -/
def numberValue (plus : Bool) (word : List Char) (ts : List Lexeme) :
    Except Fault (Expr × List Lexeme) := do
  let (text, ts) ← Number.read plus word ts
  return (.number (String.ofList text), ts)

mutual

/-- Reads a value. The fuel bounds how many values, items and entries are read within or after each
other; twice the number of tokens is enough, since a value has a token of its own. -/
def value (fuel : Nat) (ts : List Lexeme) : Except Fault (Expr × List Lexeme) :=
  match fuel, ts with
  | 0, _ => .error .unexpectedEnd
  | _, [] => .error .unexpectedEnd
  | fuel + 1, t :: rest =>
    match t.token with
    | .string text _ => .ok (.string (String.ofList text), rest)
    | .word text =>
      if text = "true".toList then .ok (.bool true, rest)
      else if text = "false".toList then .ok (.bool false, rest)
      else if startsNumber text then numberValue false text rest
      else .error .unquotedString
    | .plus =>
      match rest with
      | ⟨.word text, _⟩ :: ts => numberValue true text ts
      | ⟨.invalid fault, _⟩ :: _ => .error fault
      | _ => .error .invalidNumber
    | .leftBracket => do
      let (items, ts) ← arrayItems fuel rest
      return (.array items, ts)
    | .leftBrace =>
      match skipBlank rest with
      | ⟨.rightBrace, _⟩ :: ts => .ok (.inline [], ts)
      | ts => do
        let (body, ts) ← inlineEntries fuel [] ts
        return (.inline body, ts)
    | _ => .error (unexpected "a value" ts)

/-- Reads the items of an array up to the closing bracket. -/
def arrayItems (fuel : Nat) (ts : List Lexeme) : Except Fault (List Expr × List Lexeme) :=
  match fuel with
  | 0 => .error .unexpectedEnd
  | fuel + 1 => do
    match ← skipLines ts with
    | ⟨.rightBracket, _⟩ :: ts => return ([], ts)
    | ts =>
      let (item, ts) ← value fuel ts
      match ← skipLines ts with
      | ⟨.comma, _⟩ :: ts =>
        let (items, ts) ← arrayItems fuel ts
        return (item :: items, ts)
      | ts => return ([item], ← expect .rightBracket ts)

/-- Reads at least one entry of a table between braces, and goes on to the closing brace. -/
def inlineEntries (fuel : Nat) (body : Body) (ts : List Lexeme) :
    Except Fault (Body × List Lexeme) :=
  match fuel with
  | 0 => .error .unexpectedEnd
  | fuel + 1 => do
    let (path, ts) ← keyPath ts
    let ts ← expect .equals ts
    let (item, ts) ← value fuel (skipBlank ts)
    let body ← body.insert item path
    match skipBlank ts with
    | ⟨.rightBrace, _⟩ :: ts => return (body, ts)
    | ts => inlineEntries fuel body (← expect .comma ts)

end

/-! ### Lines and documents -/

/-- A header with the entries up to the next one. -/
structure Block where
  /-- The parts of the header. -/
  path : List Key
  /-- Whether the header stands for a new element of an array. -/
  isElement : Bool
  /-- The entries. -/
  body : Body
deriving Repr

/-- A text that follows the grammar. -/
structure Document where
  /-- The entries in front of the first header. -/
  root : Body
  /-- The headers with their entries, in order. -/
  blocks : List Block
deriving Repr

/-- Reads a header without its first bracket, and the end of its line. -/
def header (ts : List Lexeme) : Except Fault (Block × List Lexeme) := do
  match ts with
  | ⟨.leftBracket, _⟩ :: ts =>
    let (path, ts) ← keyPath ts
    let ts ← expect .rightBracket ts
    let ts ← expect .rightBracket ts
    return (⟨path, true, []⟩, ← blankLineEnd ts)
  | ts =>
    let (path, ts) ← keyPath ts
    let ts ← expect .rightBracket ts
    return (⟨path, false, []⟩, ← blankLineEnd ts)

/-- Reads an entry and the end of its line, and adds it to a body. -/
def entry (body : Body) (ts : List Lexeme) : Except Fault (Body × List Lexeme) := do
  let (path, rest) ← keyPath ts
  let rest ← expect .equals rest
  let (item, rest) ← value (2 * ts.length) (skipBlank rest)
  let rest ← blankLineEnd rest
  return (← body.insert item path, rest)

/-- Reads lines up to the end of the text, of which there are at most as many as the fuel says. The
block is the one that the entries belong to; the answer starts with it. -/
def lines (fuel : Nat) (block : Block) (ts : List Lexeme) : Except Fault (List Block) :=
  match fuel with
  | 0 => .ok [block]
  | fuel + 1 => do
    match ← skipLines ts with
    | [] => return [block]
    | ⟨.leftBracket, _⟩ :: ts =>
      let (next, ts) ← header ts
      return block :: (← lines fuel next ts)
    | ts =>
      let (body, ts) ← entry block.body ts
      lines fuel { block with body := body } ts

/-- Reads the tokens of a text. Each line has a token of its own, so their number bounds that of the
lines. -/
def Document.ofLexemes (ts : List Lexeme) : Except Fault Document := do
  match ← lines (ts.length + 1) ⟨[], false, []⟩ ts with
  | [] => return ⟨[], []⟩
  | root :: blocks => return ⟨root.body, blocks⟩

end RegisterTables.Toml
