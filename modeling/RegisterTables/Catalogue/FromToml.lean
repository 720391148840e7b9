import RegisterTables.Catalogue.Outline
import RegisterTables.Toml.Table

/-!
# Catalogues in TOML

A catalogue is an array of tables, one per environment, and each of them has an array of tables, one
per register. Either array may be missing. The members of a register stand in the order of their
keys in the text, wherever the tables were put together from.
-/

namespace RegisterTables.Catalogue

/-- A value as the content of a member. -/
def contentOfToml : Toml.Value → Content
  | .string text => .string text
  | .bool b => .literal (toString b)
  | .number text => .literal text
  | .array _ => .compound
  | .table _ => .compound

/-- The entries of a table in the order of their keys in the text. -/
def writtenOrder (t : Toml.Table) : Toml.Table :=
  t.mergeSort fun a b => a.1.place ≤ b.1.place

/-- A value as the entry of a register. -/
def registerOfToml : Toml.Value → RegisterEntry
  | .table t => some ((writtenOrder t).map fun (key, v) => (key.name, contentOfToml v))
  | _ => none

/-- A member that is an array, a missing one counting as empty. -/
def arrayOfToml (t : Toml.Table) (name : String) : Option (List Toml.Value) :=
  match t.get? name with
  | none => some []
  | some (.array items) => some items
  | some _ => none

/-- An array is found if it stands there, and an empty one if nothing does. -/
theorem arrayOfToml_eq_some_iff {t : Toml.Table} {name : String} {items : List Toml.Value} :
    arrayOfToml t name = some items ↔
      t.get? name = some (.array items) ∨ t.get? name = none ∧ items = [] := by
  unfold arrayOfToml
  split
  · next hget => simp [hget, eq_comm]
  · next items' hget => simp [hget]
  · next v hne hget =>
    have hv : v ≠ .array items := fun heq => hne items heq
    simp [hget, hv]

/-- A value as the entry of an environment. -/
def environmentOfToml : Toml.Value → Option EnvironmentEntry
  | .table t =>
    some
      { label? := (Toml.Table.get? t Format.toml.labelKey).bind fun v => (contentOfToml v).string?
        registers? := (arrayOfToml t Format.toml.registersKey).map (·.map registerOfToml) }
  | _ => none

/-- The outline of a catalogue that is a table. -/
def Outline.ofToml (t : Toml.Table) : Outline :=
  (arrayOfToml t Format.toml.environmentsKey).map (·.map environmentOfToml)

end RegisterTables.Catalogue
