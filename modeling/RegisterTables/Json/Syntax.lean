import RegisterTables.Json.Token

/-!
# The syntax of JSON

Reading a text checks the grammar and nothing else: a number may be out of range, a string may hold
half of a pair, a name may be repeated, and nesting has no limit. `Value.ofExpr?` rejects what is
wrong with the parts that are used.
-/

namespace RegisterTables.Json

/-- A value as it is written. -/
inductive Expr where
  /-- The word `null`. -/
  | null
  /-- A truth value. -/
  | bool (value : Bool)
  /-- A number. -/
  | number (n : Number)
  /-- A string. -/
  | string (units : List TextUnit)
  /-- An array. -/
  | array (items : List Expr)
  /-- An object, its members in order. -/
  | object (members : List (List TextUnit × Expr))
deriving Repr

mutual

/-- Reads a value. The fuel bounds how many values, items and members are read within or after each
other; twice the number of tokens is enough, since a value has a token of its own. -/
def value? (fuel : Nat) (ts : List Token) : Option (Expr × List Token) :=
  match fuel, ts with
  | 0, _ => none
  | _, .null :: ts => some (.null, ts)
  | _, .bool b :: ts => some (.bool b, ts)
  | _, .number n :: ts => some (.number n, ts)
  | _, .string units :: ts => some (.string units, ts)
  | _, .leftBracket :: .rightBracket :: ts => some (.array [], ts)
  | fuel + 1, .leftBracket :: ts => do
    let (items, ts) ← items? fuel ts
    return (.array items, ts)
  | _, .leftBrace :: .rightBrace :: ts => some (.object [], ts)
  | fuel + 1, .leftBrace :: ts => do
    let (members, ts) ← members? fuel ts
    return (.object members, ts)
  | _, _ => none

/-- Reads at least one item of an array, and goes on to the closing bracket. -/
def items? (fuel : Nat) (ts : List Token) : Option (List Expr × List Token) :=
  match fuel with
  | 0 => none
  | fuel + 1 => do
    let (item, ts) ← value? fuel ts
    match ts with
    | .comma :: ts => do
      let (items, ts) ← items? fuel ts
      return (item :: items, ts)
    | .rightBracket :: ts => return ([item], ts)
    | _ => none

/-- Reads at least one member of an object, and goes on to the closing brace. -/
def members? (fuel : Nat) (ts : List Token) : Option (List (List TextUnit × Expr) × List Token) :=
  match fuel, ts with
  | fuel + 1, .string name :: .colon :: ts => do
    let (item, ts) ← value? fuel ts
    match ts with
    | .comma :: ts => do
      let (members, ts) ← members? fuel ts
      return ((name, item) :: members, ts)
    | .rightBrace :: ts => return ([(name, item)], ts)
    | _ => none
  | _, _ => none

end

/-- The value that a text consists of. -/
def Expr.parse? (text : String) : Option Expr := do
  let ts ← Token.ofChars? text.toList
  match ← value? (2 * ts.length) ts with
  | (e, []) => return e
  | _ => none

end RegisterTables.Json
