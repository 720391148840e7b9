import RegisterTables.Toml.Token

/-!
# Numbers in TOML

A number may be made of several tokens: a sign, a word, a period with a word for the fraction, a
sign with a word for the exponent. Reading one checks that it is well formed and in range, and
returns its text: the spelling of its tokens, one after the other. No number is ever computed with,
so the text is all that is kept.
-/

namespace RegisterTables.Toml.Number

/-! ### Runs of digits -/

/-- Whether the underscores of a run of digits separate: each of them stands between two digits. An
empty run does not count as one. -/
def isSeparated : List Char → Bool
  | [] => false
  | '_' :: _ => false
  | [_] => true
  | _ :: '_' :: cs => isSeparated cs
  | _ :: cs => isSeparated cs

/-- A word split behind its first run of digits. -/
structure Run where
  /-- Whether a hyphen stands in front. -/
  negative : Bool
  /-- The digits, without the underscores. -/
  digits : List Char
  /-- What follows the run. -/
  rest : List Char
deriving DecidableEq, Repr

/-- Splits a word behind its first run of digits. It has none if the run is empty or badly
separated, or starts with a zero that more digits follow where none is allowed. -/
def run? (base : Nat) (signed leadingZeros : Bool) (word : List Char) : Option Run :=
  let negative := signed && word.head? == some '-'
  let body := if negative then word.tail else word
  let run := body.takeWhile fun c => Text.isDigitIn base c || c == '_'
  if isSeparated run && (leadingZeros || run.head? != some '0' || run.length == 1) then
    some ⟨negative, run.filter (· != '_'), body.drop run.length⟩
  else none

/-! ### Whole numbers -/

/-- Whether the digits, all of them in the base, make a number of 63 bits. -/
def isNatural (base : Nat) (word : List Char) : Bool :=
  match run? base false true word with
  | some run => run.rest.isEmpty && Text.valueIn base run.digits < Nat.pow 2 63
  | none => false

/-- Whether the word is a decimal number of 64 bits with sign. -/
def isInteger (word : List Char) : Bool :=
  match run? 10 true false word with
  | some run =>
    let n := Text.valueIn 10 run.digits
    run.rest.isEmpty && (n < Nat.pow 2 63 || (run.negative && n == Nat.pow 2 63))
  | none => false

/-- The words for what is no number of the line. -/
def isSpecial (word : List Char) : Bool :=
  word ∈ ["inf".toList, "-inf".toList, "nan".toList, "-nan".toList]

/-! ### Fractions and exponents -/

/-- Whether the decimal with these digits and power of ten rounds to a finite number of double
precision. The least one that does not is halfway between the greatest finite number and the power
of two above it. -/
def isFinite (digits : List Char) (exponent : Int) : Bool :=
  let significant := digits.dropWhile (· == '0')
  let magnitude := significant.length + exponent
  if significant.isEmpty || magnitude < 309 then true
  else if magnitude > 309 then false
  else
    Text.valueIn 10 significant * Nat.pow 10 exponent.toNat
      < (Nat.pow 2 54 - 1) * Nat.pow 2 970 * Nat.pow 10 (-exponent).toNat

/-- Finishes a number with a fraction or an exponent: `text` is its spelling so far, `suffix` what
its last word holds behind the digits. An exponent with a plus sign is in tokens of its own. -/
def exponent (text digits : List Char) (scale : Nat) (suffix : List Char) (ts : List Lexeme) :
    Except Fault (List Char × List Lexeme) :=
  let finish (power : Int) (text : List Char) (ts : List Lexeme) :=
    if isFinite digits (power - scale) then .ok (text, ts) else .error .invalidNumber
  match suffix with
  | [] => finish 0 text ts
  | c :: rest =>
    if c != 'e' && c != 'E' then .error .invalidNumber
    else if rest.isEmpty then
      match ts with
      | ⟨.plus, _⟩ :: ⟨.word word, _⟩ :: ts =>
        match run? 10 false true word with
        | some run =>
          if run.rest.isEmpty then
            finish (Text.valueIn 10 run.digits) (text ++ '+' :: word) ts
          else .error .invalidNumber
        | none => .error .invalidNumber
      | ⟨.plus, _⟩ :: ⟨.invalid fault, _⟩ :: _ => .error fault
      | ⟨.invalid fault, _⟩ :: _ => .error fault
      | _ => .error .invalidNumber
    else
      match run? 10 true true rest with
      | some run =>
        let power : Int := Text.valueIn 10 run.digits
        if run.rest.isEmpty then finish (if run.negative then -power else power) text ts
        else .error .invalidNumber
      | none => .error .invalidNumber

/-- Reads a number with a fraction or an exponent, given the words in front of and behind the
period. -/
def float (text word : List Char) (fraction : Option (List Char)) (ts : List Lexeme) :
    Except Fault (List Char × List Lexeme) :=
  match run? 10 true false word with
  | none => .error .invalidNumber
  | some whole =>
    match fraction with
    | none => exponent text whole.digits 0 whole.rest ts
    | some word =>
      match run? 10 false true word with
      | some part =>
        if whole.rest.isEmpty then
          exponent text (whole.digits ++ part.digits) part.digits.length part.rest ts
        else .error .invalidNumber
      | none => .error .invalidNumber

/-- Reads a number that starts with a word, after a plus sign if there is one. -/
def read (plus : Bool) (word : List Char) (ts : List Lexeme) :
    Except Fault (List Char × List Lexeme) :=
  let text := if plus then '+' :: word else word
  let whole (valid : Bool) := if valid then .ok (text, ts) else .error .invalidNumber
  match word with
  | '0' :: 'x' :: digits => whole (isNatural 16 digits)
  | '0' :: 'o' :: digits => whole (isNatural 8 digits)
  | '0' :: 'b' :: digits => whole (isNatural 2 digits)
  | _ =>
    if word.any fun c => c == 'e' || c == 'E' then float text word none ts
    else
      match ts with
      | ⟨.period, _⟩ :: ⟨.word fraction, _⟩ :: ts =>
        float (text ++ '.' :: fraction) word (some fraction) ts
      | ⟨.period, _⟩ :: ⟨.invalid fault, _⟩ :: _ => .error fault
      | ⟨.period, _⟩ :: _ => .error .invalidNumber
      | ⟨.invalid fault, _⟩ :: _ => .error fault
      | _ => whole (isSpecial word || isInteger word)

end RegisterTables.Toml.Number
