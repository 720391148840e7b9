import RegisterTables.Catalogue.Outline
import RegisterTables.Json.Value

/-!
# Catalogues in JSON

A catalogue is an object with a list of environments, and each of them is an object with a label and
a list of registers. All of these members may be missing. Either object may also be written as an
array of its members in their order, the last of which may be missing as well.

A member that is none of these is ignored: it only has to follow the grammar. The entries of
registers may be any values, whose parts must all stand for something.
-/

namespace RegisterTables.Catalogue

open Json (Expr)

/-- How deep the entry of a register may be nested. A catalogue may be nested 127 deep, and the
object, the list of environments, the environment and its list of registers are four of them. -/
def entryDepth : Nat := 123

/-- The members of an object by their names, if all names stand for something. -/
def namedMembers? (members : List (List Json.TextUnit × Expr)) : Option (List (String × Expr)) :=
  members.mapM fun (name, e) => return (← Json.text? name, e)

/-- The values of the members of an object that have one of the given names, each of which may occur
only once. -/
def pick? (names : List String) (members : List (String × Expr)) : Option (List (Option Expr)) :=
  names.mapM fun name =>
    match members.filter (·.1 = name) with
    | [] => some none
    | [(_, e)] => some (some e)
    | _ => none

/-- The values of the given members of an object, or of an array that has the first ones of them. It
has at least `least` items. -/
def recordMembers? (names : List String) (least : Nat) : Expr → Option (List (Option Expr))
  | .object members => do pick? names (← namedMembers? members)
  | .array items =>
    if least ≤ items.length ∧ items.length ≤ names.length then
      some (items.map some ++ List.replicate (names.length - items.length) none)
    else none
  | _ => none

/-- The items of an array, a missing one counting as empty. -/
def items? : Option Expr → Option (List Expr)
  | none => some []
  | some (.array items) => some items
  | some _ => none

/-- A value as the label of an environment; it may be missing or null. -/
def labelOfJson? : Option Expr → Option (Option String)
  | none => some none
  | some .null => some none
  | some (.string units) => (Json.text? units).map some
  | some _ => none

/-- A value as the content of a member. -/
def contentOfJson : Json.Value → Content
  | .string text => .string text
  | .bool b => .literal (toString b)
  | .number text => .literal text
  | .null => .compound
  | .array _ => .compound
  | .object _ => .compound

/-- A value as the entry of a register. -/
def registerOfJson : Json.Value → RegisterEntry
  | .object members => some (members.map fun (name, v) => (name, contentOfJson v))
  | _ => none

/-- A value as the entry of an environment. -/
def environmentOfJson? (e : Expr) : Option EnvironmentEntry := do
  match ← recordMembers? [Format.json.labelKey, Format.json.registersKey] 1 e with
  | [label, registers] =>
    let label ← labelOfJson? label
    let registers ← Json.Value.ofItems? entryDepth (← items? registers)
    return ⟨label, some (registers.map registerOfJson)⟩
  | _ => none

/-- The outline of a catalogue, if it is one. -/
def Outline.ofJson? (e : Expr) : Option Outline := do
  match ← recordMembers? [Format.json.environmentsKey] 0 e with
  | [environments] =>
    let environments ← (← items? environments).mapM environmentOfJson?
    return some (environments.map some)
  | _ => none

end RegisterTables.Catalogue
