import RegisterTables.Toml.Syntax

/-!
# TOML tables

What the entries and headers of a document add up to: a table whose keys have pairwise distinct
names. It is kept by these names, so nothing of the order of the text is left in it but the places of
the keys.

A table takes its plain entries first. Its groups of dotted keys are put aside, since a header may
still add to them. The headers that lead further into the table are then taken in branches, one for
each next part; a branch takes the group of its name along. Groups that no branch has taken come
last, by name.
-/

namespace RegisterTables.Toml

/-- A value. -/
inductive Value where
  /-- A string. -/
  | string (value : String)
  /-- A truth value. -/
  | bool (value : Bool)
  /-- A number, by its spelling. -/
  | number (text : String)
  /-- An array. -/
  | array (items : List Value)
  /-- A table. -/
  | table (entries : List (Key × Value))
deriving Repr

/-- Named values, in ascending order of their names. -/
abbrev Table := List (Key × Value)

namespace Table

/-- Whether the table has an entry of that name. -/
def contains (t : Table) (name : String) : Bool :=
  t.any (·.1.name = name)

/-- The value of that name. -/
def get? (t : Table) (name : String) : Option Value :=
  (t.find? (·.1.name = name)).map Prod.snd

theorem get?_cons (p : Key × Value) (t : Table) (name : String) :
    get? (p :: t) name = if p.1.name = name then some p.2 else t.get? name := by
  rw [get?, List.find?_cons]
  by_cases hname : p.1.name = name
  · rw [if_pos hname, decide_eq_true hname]
    rfl
  · rw [if_neg hname, decide_eq_false hname]
    rfl

/-- Puts a value at the place of its name, which the table does not have yet. -/
def insert (t : Table) (key : Key) (v : Value) : Table :=
  match t with
  | [] => [(key, v)]
  | p :: t => if key.name < p.1.name then (key, v) :: p :: t else p :: insert t key v

/-- Inserting a value adds one entry. -/
theorem perm_insert (t : Table) (key : Key) (v : Value) : (t.insert key v).Perm ((key, v) :: t) := by
  induction t with
  | nil => exact .refl _
  | cons p t ih =>
    unfold insert
    split
    · exact .refl _
    · exact (ih.cons p).trans (.swap (key, v) p t)

theorem mem_insert {t : Table} {key : Key} {v : Value} {p : Key × Value} :
    p ∈ t.insert key v ↔ p = (key, v) ∨ p ∈ t :=
  (perm_insert t key v).mem_iff.trans List.mem_cons

/-- A value that was inserted is found under its name, and no other name is affected. -/
theorem get?_insert {t : Table} {key : Key} (hnew : t.contains key.name = false) (v : Value)
    (name : String) :
    (t.insert key v).get? name = if key.name = name then some v else t.get? name := by
  induction t with
  | nil => exact get?_cons (key, v) [] name
  | cons p t ih =>
    unfold contains at hnew ih
    rw [List.any_cons, Bool.or_eq_false_iff, decide_eq_false_iff_not] at hnew
    obtain ⟨hne, hnew⟩ := hnew
    unfold insert
    split
    · exact get?_cons (key, v) (p :: t) name
    · rw [get?_cons, get?_cons, ih hnew]
      by_cases hname : key.name = name
      · rw [if_pos hname, if_neg fun h => hne (h.trans hname.symm), if_pos hname]
      · rw [if_neg hname, if_neg hname]

end Table

/-! ### Values as they are written -/

mutual

/-- The value that is written so. -/
def Expr.value : Expr → Except Fault Value
  | .string text => .ok (.string text)
  | .bool b => .ok (.bool b)
  | .number text => .ok (.number text)
  | .array items => return .array (← Expr.values items)
  | .inline body => return .table (← Table.insertAll [] body)
  | .group body => return .table (← Table.insertAll [] body)

/-- The items of an array. -/
def Expr.values : List Expr → Except Fault (List Value)
  | [] => .ok []
  | e :: items => do
    let v ← e.value
    return v :: (← Expr.values items)

/-- Adds entries to a table, whatever their kind. A name that is already there is a fault, and it is
found before the value is looked at. -/
def Table.insertAll (t : Table) : Body → Except Fault Table
  | [] => .ok t
  | (key, e) :: body =>
    if t.contains key.name then .error (.duplicateKey key.name)
    else do
      let v ← e.value
      Table.insertAll (t.insert key v) body

end

/-! ### Groups of dotted keys -/

/-- The entries of dotted keys with a common first part. -/
structure Group where
  /-- The common part. -/
  key : Key
  /-- The entries behind it. -/
  body : Body
deriving Repr

namespace Group

/-- Puts a group at its place among groups in ascending order of their names. Of two groups of one
name, the entries of the later one count. -/
def add (g : Group) : List Group → List Group
  | [] => [g]
  | h :: hs =>
    if g.key.name < h.key.name then g :: h :: hs
    else if g.key.name = h.key.name then { h with body := g.body } :: hs
    else h :: add g hs

/-- The group that an entry is, if it is one. -/
def ofEntry? : Key × Expr → Option Group
  | (key, .group body) => some ⟨key, body⟩
  | _ => none

/-- The groups among the entries of a body, in ascending order of their names. -/
def ofBody (body : Body) : List Group :=
  (body.filterMap ofEntry?).foldl (fun groups g => g.add groups) []

/-- The group as an entry. -/
def entry (g : Group) : Key × Expr :=
  (g.key, .group g.body)

end Group

/-- The entries of a body that are no groups. -/
def Body.plain (body : Body) : Body :=
  body.filter fun entry => (Group.ofEntry? entry).isNone

/-! ### Headers -/

/-- The headers that lead into a table through the same part. -/
structure Branch where
  /-- The part, as the first of the headers has it. -/
  key : Key
  /-- The headers with what follows the part, in order. -/
  blocks : List Block
deriving Repr

namespace Branch

/-- Adds a header to the branch of its first part. A header without parts leads nowhere. -/
def add (branches : List Branch) (block : Block) : List Branch :=
  match block.path with
  | [] => branches
  | key :: path =>
    let block := { block with path := path }
    if branches.any (·.key.name = key.name) then
      branches.map fun b =>
        if b.key.name = key.name then { b with blocks := b.blocks ++ [block] } else b
    else branches ++ [⟨key, [block]⟩]

/-- The branches of a list of headers, in the order of their first headers. -/
def ofBlocks (blocks : List Block) : List Branch :=
  blocks.foldl add []

end Branch

/-- Whether the header ends here, rather than leading further. -/
def Block.isDefinition (b : Block) : Bool :=
  b.path.isEmpty

/-- Cuts headers in front of each definition. What stands before the first one is dropped. -/
def Block.runs : List Block → List (Block × List Block)
  | [] => []
  | b :: blocks =>
    if b.isDefinition then
      (b, blocks.takeWhile (!·.isDefinition)) :: runs blocks
    else runs blocks

/-- The value of a branch, given how a table is made of its entries and its headers. If all
definitions of the branch stand for elements, it is an array with a table for each of them.
Otherwise it is one table, with at most one definition. The group is that of the branch's name. -/
def Branch.value (assemble : Body → List Block → Except Fault Table) (b : Branch) (group : Body) :
    Except Fault Value :=
  let definitions := b.blocks.filter Block.isDefinition
  let further := b.blocks.filter (!·.isDefinition)
  if !definitions.isEmpty && definitions.all Block.isElement then
    if b.blocks.head?.all Block.isDefinition then do
      let tables ← (Block.runs b.blocks).mapM fun (d, blocks) => assemble d.body blocks
      return .array (tables.map .table)
    else .error .tableRedefinedAsArray
  else
    match definitions with
    | [] => return .table (← assemble group further)
    | [d] => return .table (← assemble (d.body ++ group) further)
    | _ => .error (.tableRedefined b.key.name)

namespace Table

/-- Adds the branches to a table, and then the groups that none of them has taken. -/
def addBranches (assemble : Body → List Block → Except Fault Table) (t : Table)
    (groups : List Group) : List Branch → Except Fault Table
  | [] => t.insertAll (groups.map Group.entry)
  | b :: branches =>
    let group := groups.find? (·.key.name = b.key.name)
    if group.isSome && b.blocks.head?.any Block.isDefinition then
      .error (.duplicateKey b.key.name)
    else if t.contains b.key.name then .error (.duplicateKey b.key.name)
    else do
      let v ← b.value assemble ((group.map Group.body).getD [])
      addBranches assemble (t.insert b.key v) (groups.filter (·.key.name ≠ b.key.name)) branches

/-- Makes a table of its entries and the headers that lead into it, none of which has more parts
than `depth` says. -/
def assemble : (depth : Nat) → Body → List Block → Except Fault Table
  | 0, body, _ => do
    let t ← insertAll [] body.plain
    t.insertAll ((Group.ofBody body).map Group.entry)
  | depth + 1, body, blocks => do
    let t ← insertAll [] body.plain
    t.addBranches (assemble depth) (Group.ofBody body) (Branch.ofBlocks blocks)

/-- The table of a document. -/
def ofDocument (d : Document) : Except Fault Table :=
  assemble ((d.blocks.map (·.path.length)).max?.getD 0) d.root d.blocks

/-- The table that a text describes. -/
def parse (text : String) : Except Fault Table := do
  ofDocument (← Document.ofLexemes (lexemes text))

end Table

end RegisterTables.Toml
