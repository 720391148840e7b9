import RegisterTables.Proofs.Catalogue.Reading
import RegisterTables.Proofs.Json.Members
import RegisterTables.Proofs.Json.Writing

/-!
# Catalogues in JSON are read as they were written

`Catalogue.parse_jsonText`: a list of environments that is written as a JSON text is read back from
it, whatever the strings hold and however they are spelled. Members of a register may be repeated.
Each register becomes an observation, in the order of the text, whose fields are the distinct names
of the members in the order of their first occurrences, each with the text of its last value. The
name of the register is the last one that it is given, wherever that stands.

The text is read as a tree (`Json.Tree.parse?_text`), and repeated members are put together
(`Json.Value.ofMembers_eq`). What is left is to look for the members at each level of the tree.
-/

namespace RegisterTables.Catalogue

open Json (Spelling Tree Expr Value lastValues)

/-! ### What is written -/

/-- The value of a member: a text, a truth value, or an integer of 64 bits, signed or not. -/
inductive Scalar where
  /-- A text. -/
  | string (s : String)
  /-- A truth value. -/
  | bool (b : Bool)
  /-- An integer. -/
  | integer (i : ℤ) (hlow : -2 ^ 63 ≤ i) (hhigh : i < 2 ^ 64)

namespace Scalar

/-- The text that is read of a value. -/
def text : Scalar → String
  | string s => s
  | bool b => toString b
  | integer i _ _ => toString i

/-- The value in a tree. -/
def tree : Scalar → Tree
  | string s => .string s
  | bool b => .bool b
  | integer i _ _ => .integer i

end Scalar

/-- The members of a register, which may be repeated. The last one with the name is a text. -/
structure RegisterObject where
  /-- The members, in order. -/
  members : List (String × Scalar)
  /-- The name of the register. -/
  name : String
  /-- It is the last one that is written. -/
  lookup_nameKey : members.reverse.lookup nameKey = some (.string name)

/-- An environment with its registers, of which there may be none. -/
structure EnvironmentObject where
  /-- The label of the environment. -/
  label : String
  /-- The registers, in order. -/
  registers : List RegisterObject

namespace RegisterObject

/-- The distinct members beside the name, in the order of their first occurrences, each with the
text of its last value. -/
def fields (r : RegisterObject) : List (String × String) :=
  ((lastValues r.members).filter (·.1 ≠ nameKey)).map fun m => (m.1, m.2.text)

/-- The name may be repeated and stand anywhere; a repeated field keeps its first place. -/
example : (RegisterObject.mk [("b", .bool true), ("name", .bool false), ("a", .string "x"),
    ("b", .string "y"), ("name", .string "R")] "R" rfl).fields = [("b", "y"), ("a", "x")] := by
  decide

/-- The observation that a register of an environment is. -/
def observation (label : String) (r : RegisterObject) : Observation :=
  ⟨label, r.name, ⟨r.fields⟩⟩

/-- The register as an object. -/
def tree (r : RegisterObject) : Tree :=
  .object (r.members.map fun m => (m.1, m.2.tree))

end RegisterObject

/-- The environment as an object. -/
def EnvironmentObject.tree (e : EnvironmentObject) : Tree :=
  .object [("env", .string e.label), ("registers", .array (e.registers.map RegisterObject.tree))]

/-- The observations of environments, in order. -/
def writtenObservations (es : List EnvironmentObject) : List Observation :=
  es.flatMap fun e => e.registers.map (RegisterObject.observation e.label)

/-- The text that environments are written in. -/
def jsonText (spelling : Spelling) (es : List EnvironmentObject) : String :=
  Tree.text spelling (.object [("environments", .array (es.map EnvironmentObject.tree))])

/-! ### Registers -/

variable (spelling : Spelling)

/-- The value that is made of a scalar. -/
def Scalar.value : Scalar → Value
  | string s => .string s
  | bool b => .bool b
  | integer i _ _ => .number (toString i)

/-- The content of a member. -/
def Scalar.content (v : Scalar) : Content :=
  contentOfJson v.value

theorem Scalar.text?_content (v : Scalar) : v.content.text? = some v.text := by
  cases v with
  | string s => rfl
  | bool b => rfl
  | integer i hlow hhigh => rfl

theorem Scalar.ofExpr?_tree (depth : ℕ) (v : Scalar) :
    Value.ofExpr? depth (v.tree.expr spelling) = some v.value := by
  cases v with
  | string s =>
    rw [tree, Tree.expr, Value.ofExpr?, Json.text?_units]
    rfl
  | bool b => rfl
  | integer i hlow hhigh =>
    rw [tree, Tree.expr, Value.ofExpr?, Json.Number.text?_ofInt hlow hhigh]
    rfl

/-- The members of an object are decoded one after the other. -/
theorem ofMembers?_tree (depth : ℕ) (members : List (String × Scalar)) :
    Value.ofMembers? depth (Tree.membersExpr spelling (members.map fun m => (m.1, m.2.tree)))
      = some (members.map fun m => (m.1, m.2.value)) := by
  induction members with
  | nil => rfl
  | cons m members ih =>
    rw [List.map_cons, Tree.membersExpr, Value.ofMembers?, Json.text?_units, Scalar.ofExpr?_tree,
      ih]
    rfl

namespace RegisterObject

/-- The value that is made of a register. -/
def value (r : RegisterObject) : Value :=
  .object (lastValues (r.members.map fun m => (m.1, m.2.value)))

/-- The entry of a register in an outline. -/
def entry (r : RegisterObject) : RegisterEntry :=
  some ((lastValues r.members).map fun m => (m.1, m.2.content))

theorem ofExpr?_tree (depth : ℕ) (r : RegisterObject) :
    Value.ofExpr? (depth + 1) (r.tree.expr spelling) = some r.value := by
  rw [tree, Tree.expr, Value.ofExpr?, ofMembers?_tree, Option.map_some, Value.ofMembers_eq, value]

theorem ofItems?_tree (depth : ℕ) (rs : List RegisterObject) :
    Value.ofItems? (depth + 1) (Tree.itemsExpr spelling (rs.map tree)) = some (rs.map value) := by
  induction rs with
  | nil => rfl
  | cons r rs ih =>
    rw [List.map_cons, Tree.itemsExpr, Value.ofItems?, ofExpr?_tree, ih]
    rfl

theorem registerOfJson_value (r : RegisterObject) : registerOfJson r.value = r.entry := by
  rw [value, Json.lastValues_map, registerOfJson, List.map_map]
  rfl

theorem fieldTexts_content (l : List (String × Scalar)) :
    fieldTexts (l.map fun m => (m.1, m.2.content))
      = (l.filter (·.1 ≠ nameKey)).map fun m => (m.1, m.2.text) := by
  induction l with
  | nil => rfl
  | cons m l ih =>
    rw [List.map_cons, fieldTexts, List.filterMap_cons, ← fieldTexts, ih]
    by_cases hm : m.1 = nameKey
    · rw [if_pos hm, List.filter_cons_of_neg (by simpa using hm)]
    · rw [if_neg hm, Scalar.text?_content, List.filter_cons_of_pos (by simpa using hm),
        List.map_cons]
      rfl

/-- The entry of a register makes its observation. -/
theorem read_entry (label : String) (r : RegisterObject) :
    r.entry.read label = .ofObservation (r.observation label) := by
  have hname : ((lastValues r.members).map fun m => (m.1, m.2.content)).lookup nameKey
      = some (.string r.name) := by
    rw [← Json.lastValues_map, Json.lookup_lastValues, ← List.map_reverse, Json.lookup_map,
      r.lookup_nameKey]
    rfl
  rw [entry, RegisterEntry.read_eq_ofObservation hname, fieldTexts_content]
  · rfl
  · intro m hm _
    obtain ⟨p, -, rfl⟩ := List.mem_map.1 hm
    rw [Scalar.text?_content]
    rfl

end RegisterObject

/-! ### Environments -/

/-- The members with some names are looked for among members that are written once. -/
theorem recordMembers?_object (names : List String) (least : ℕ) (members : List (String × Tree)) :
    recordMembers? names least (.object (Tree.membersExpr spelling members))
      = pick? names (members.map fun m => (m.1, m.2.expr spelling)) := by
  have hnamed : namedMembers? (Tree.membersExpr spelling members)
      = some (members.map fun m => (m.1, m.2.expr spelling)) := by
    induction members with
    | nil => rfl
    | cons m members ih =>
      rw [Tree.membersExpr, namedMembers?, List.mapM_cons, ← namedMembers?, ih]
      simp only [Json.text?_units]
      rfl
  rw [recordMembers?, hnamed]
  rfl

namespace EnvironmentObject

/-- The entry of an environment in an outline. -/
def entry (e : EnvironmentObject) : EnvironmentEntry :=
  ⟨some e.label, some (e.registers.map RegisterObject.entry)⟩

theorem environmentOfJson?_tree (e : EnvironmentObject) :
    environmentOfJson? (e.tree.expr spelling) = some e.entry := by
  have hpick (label registers : Expr) :
      pick? [Format.json.labelKey, Format.json.registersKey]
        [("env", label), ("registers", registers)] = some [some label, some registers] := rfl
  have hlabel : labelOfJson? (some (.string (spelling.units e.label))) = some (some e.label) := by
    rw [labelOfJson?, Json.text?_units]
    rfl
  have hregisters := RegisterObject.ofItems?_tree spelling 122 e.registers
  rw [environmentOfJson?, tree, Tree.expr, recordMembers?_object, List.map_cons, List.map_singleton,
    hpick]
  simp only [bind, Option.bind, hlabel, Tree.expr, items?, entryDepth, hregisters, List.map_map]
  rw [entry, List.map_congr_left fun r _ => r.registerOfJson_value]
  rfl

theorem mapM_environmentOfJson? (es : List EnvironmentObject) :
    (Tree.itemsExpr spelling (es.map tree)).mapM environmentOfJson? = some (es.map entry) := by
  induction es with
  | nil => rfl
  | cons e es ih =>
    rw [List.map_cons, Tree.itemsExpr, List.mapM_cons, ih, environmentOfJson?_tree]
    rfl

end EnvironmentObject

/-- **Catalogues in JSON are read as they were written.** From the text of a list of environments,
whose strings may be spelled in any way, one observation is read for each register, in the order of
the text. Its fields are the distinct members beside the name, where they first occur, with the text
of their last values. -/
theorem parse_jsonText (origin : String) (es : List EnvironmentObject) :
    parse origin (jsonText spelling es) .json
      = ⟨.ok (writtenObservations es),
          [.loadedCatalogue origin es.length (writtenObservations es).length]⟩ := by
  have hpick (environments : Expr) :
      pick? [Format.json.environmentsKey] [("environments", environments)]
        = some [some environments] := rfl
  have henvironments := EnvironmentObject.mapM_environmentOfJson? spelling es
  have houtline : outline (jsonText spelling es) .json
      = .ok (some (es.map fun e => some e.entry)) := by
    rw [outline, jsonText, Tree.parse?_text, Option.bind_some, Outline.ofJson?, Tree.expr,
      recordMembers?_object, List.map_singleton, hpick]
    simp only [bind, Option.bind, Tree.expr, items?, henvironments]
    show Except.ok (some ((es.map EnvironmentObject.entry).map some)) = _
    rw [List.map_map]
    rfl
  have hread : Outline.read (some (es.map fun e => some e.entry))
      = ⟨writtenObservations es, none⟩ :=
    read_map fun e _ r _ => r.read_entry e.label
  rw [parse_eq_ok houtline hread, Outline.size, List.length_map]

end RegisterTables.Catalogue
