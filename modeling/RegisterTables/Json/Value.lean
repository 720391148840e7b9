import RegisterTables.Json.Syntax

/-!
# JSON values

What a value as it is written stands for: numbers and strings are decoded, and names of an object
are pairwise distinct. Where a name is repeated, the first place and the last value count.
-/

namespace RegisterTables.Json

/-- A value. -/
inductive Value where
  /-- The value that stands for nothing. -/
  | null
  /-- A truth value. -/
  | bool (value : Bool)
  /-- A number, by the text of what it stands for. -/
  | number (text : String)
  /-- A string. -/
  | string (value : String)
  /-- An array. -/
  | array (items : List Value)
  /-- An object. -/
  | object (members : List (String × Value))
deriving Repr

/-- The text that a string stands for. -/
def text? (units : List TextUnit) : Option String :=
  (TextUnit.decode? units).map String.ofList

namespace Value

/-- Puts a value under its name: in place of an earlier one, or else at the end. -/
def insert (name : String) (v : Value) : List (String × Value) → List (String × Value)
  | [] => [(name, v)]
  | (n, w) :: members => if n = name then (n, v) :: members else (n, w) :: insert name v members

/-- Members with the repeated names put together. -/
def ofMembers (members : List (String × Value)) : List (String × Value) :=
  members.foldl (fun l m => insert m.1 m.2 l) []

mutual

/-- The value that is written so, if it is nested at most `depth` deep and all its strings and
numbers stand for something. -/
def ofExpr? (depth : Nat) : Expr → Option Value
  | .null => some .null
  | .bool b => some (.bool b)
  | .number n => n.text?.map .number
  | .string units => (text? units).map .string
  | .array items =>
    match depth with
    | 0 => none
    | depth + 1 => (ofItems? depth items).map .array
  | .object members =>
    match depth with
    | 0 => none
    | depth + 1 => (ofMembers? depth members).map fun l => .object (ofMembers l)

/-- The items of an array. -/
def ofItems? (depth : Nat) : List Expr → Option (List Value)
  | [] => some []
  | e :: items => do
    let v ← ofExpr? depth e
    return v :: (← ofItems? depth items)

/-- The members of an object, repeated names included. -/
def ofMembers? (depth : Nat) : List (List TextUnit × Expr) → Option (List (String × Value))
  | [] => some []
  | (name, e) :: members => do
    let name ← text? name
    let v ← ofExpr? depth e
    return (name, v) :: (← ofMembers? depth members)

end

end Value

end RegisterTables.Json
