import RegisterTables.EnvironmentIndex
import RegisterTables.Event
import RegisterTables.Report.Basic

/-!
# Building a report

`ReportOptions.build` turns a list of observations into a report. Registers stand in ascending
order, and so do the columns of each table, which are the environments that reported its register.
The rows are the fields of the register's first observation, in its order.

What a table cannot show is logged: an observation whose field names differ from those of the first
one, and an environment that reported the register again.
-/

namespace RegisterTables

/-- How the cells of a row are matched with the columns of its table. -/
inductive ColumnPolicy where
  /-- Each column gets the value that its environment reported, and an empty cell if there is
  none. -/
  | aligned
  /-- The values follow each other in the order of the observations, and an observation without
  the field leaves no gap. They match the columns only where the observations are listed in the
  order of their environments and each has every field. -/
  | sourceOrder
deriving DecidableEq, Repr

/-- What to put into a report. -/
structure ReportOptions where
  /-- The title. -/
  title : String := "Some system registers"
  /-- How cells are matched with columns. -/
  policy : ColumnPolicy := .aligned
  /-- Whether uniform rows are left out. A table is kept even if it loses all its rows. -/
  differingOnly : Bool := false
  /-- The registers to include; all if the list is empty. -/
  registers : List String := []
deriving DecidableEq, Repr

/-! ### Observations that cannot be reported -/

/-- Why an observation cannot be reported. -/
inductive Observation.Flaw where
  /-- The environment has no label. -/
  | emptyEnvironment
  /-- The register has no name. -/
  | emptyRegister
deriving DecidableEq, Repr

/-- The wording of a flaw. -/
def Observation.Flaw.reason : Observation.Flaw → String
  | emptyEnvironment => "empty environment label"
  | emptyRegister => "empty register name"

/-- The flaw of an observation, if it has one; a missing label counts before a missing name. -/
def Observation.flaw? (o : Observation) : Option Observation.Flaw :=
  if o.environment = "" then some .emptyEnvironment
  else if o.register = "" then some .emptyRegister
  else none

/-- The error about the first observation with a flaw, if there is one. -/
def malformed? (l : List Observation) : Option Error :=
  go 0 l
where
  /-- Looks through the observations from position `i` on. -/
  go (i : Nat) : List Observation → Option Error
    | [] => none
    | o :: l =>
      match o.flaw? with
      | some flaw => some (.malformedObservation i flaw.reason)
      | none => go (i + 1) l

/-! ### Cells -/

namespace RegisterGroup

/-- What an environment reported for a field: the value in its first observation that has the
field. -/
def value? (g : RegisterGroup) (environment field : String) : Option String :=
  (g.observations.filter (·.environment = environment)).findSome? (·.fields.get? field)

/-- One cell for each of the columns, empty where the environment did not report the field. -/
def alignedCells (g : RegisterGroup) (columns : List String) (field : String) : List String :=
  columns.map fun environment => (g.value? environment field).getD ""

/-- The values of the field in the observations of the columns, in the order of the
observations. -/
def sourceOrderCells (g : RegisterGroup) (columns : List String) (field : String) : List String :=
  (g.observations.filter (·.environment ∈ columns)).filterMap (·.fields.get? field)

/-- The cells of a row by the given policy. -/
def cells (g : RegisterGroup) : ColumnPolicy → List String → String → List String
  | .aligned => g.alignedCells
  | .sourceOrder => g.sourceOrderCells

/-! ### Warnings -/

/-- The warning about a later observation whose set of field names is not that of the first one. -/
def fieldSetWarning? (g : RegisterGroup) (o : Observation) : Option Event :=
  let first := Ascending.ofList g.fieldOrder
  let names := Ascending.ofList o.fields.names
  let missing := Ascending.diff first names
  let extra := Ascending.diff names first
  if missing = [] ∧ extra = [] then none
  else some (.fieldSetDiffers g.register o.environment missing extra)

/-- The warnings about environments that occur again, given those that were met before. -/
def repeatWarnings (register : String) (seen : List String) : List Observation → List Event
  | [] => []
  | o :: l =>
    if o.environment ∈ seen then
      .environmentRepeated register o.environment :: repeatWarnings register seen l
    else repeatWarnings register (o.environment :: seen) l

/-- What the table of a group cannot show. -/
def warnings (g : RegisterGroup) : List Event :=
  (g.observations.drop 1).filterMap g.fieldSetWarning? ++
    repeatWarnings g.register [] g.observations

end RegisterGroup

/-! ### Tables and reports -/

namespace ReportOptions

/-- Whether the register is to be included. -/
def includes (options : ReportOptions) (register : String) : Bool :=
  options.registers.isEmpty || register ∈ options.registers

/-- The first register asked for that no group is of. -/
def unknown? (options : ReportOptions) (groups : List RegisterGroup) : Option String :=
  options.registers.find? fun register => groups.all (·.register ≠ register)

/-- The table of a group, with the number that it has in the report. -/
def table (options : ReportOptions) (index : EnvironmentIndex) (number : Nat)
    (g : RegisterGroup) : RegisterTable :=
  let columns := index.restrict g
  let rows := g.fieldOrder.map fun field => ⟨field, g.cells options.policy columns field⟩
  { index := number
    register := g.register
    environments := columns
    rows := if options.differingOnly then rows.filter (!·.isUniform) else rows }

/-- The tables of the groups, numbered in their order. -/
def tables (options : ReportOptions) (index : EnvironmentIndex) (groups : List RegisterGroup) :
    List RegisterTable :=
  groups.zipIdx.map fun (g, number) => options.table index number g

/-- Builds the report on a list of observations. -/
def build (options : ReportOptions) (l : List Observation) : Logged Report :=
  match malformed? l with
  | some e => ⟨.error e, []⟩
  | none =>
    let groups := groupObservations l
    let index := EnvironmentIndex.ofObservations l
    let grouped := Event.groupedObservations l.length groups.length index.size
    match options.unknown? groups with
    | some register => ⟨.error (.unknownRegister register), [grouped]⟩
    | none =>
      let selected := groups.filter (options.includes ·.register)
      ⟨.ok ⟨options.title, options.tables index selected⟩,
        grouped :: selected.flatMap RegisterGroup.warnings⟩

end ReportOptions

end RegisterTables
