/-!
# Reports

A report compares registers across environments: one table per register, with a column per
environment and a row per field. Nothing here ties the parts together, so a report can also be put
together by hand; `ReportOptions.build` makes those whose tables are filled from observations.
-/

namespace RegisterTables

/-- A row of a table. -/
@[ext] structure Row where
  /-- The field that the row is about. -/
  field : String
  /-- The cells from left to right; there may be fewer or more than columns. -/
  cells : List String
deriving DecidableEq, Repr

/-- The comparison of one register. -/
@[ext] structure RegisterTable where
  /-- The running number of the table in its report, from zero. -/
  index : Nat
  /-- The register. -/
  register : String
  /-- The label of each column. -/
  environments : List String
  /-- The rows from top to bottom. -/
  rows : List Row
deriving DecidableEq, Repr

/-- A titled list of tables. -/
@[ext] structure Report where
  /-- The title. -/
  title : String
  /-- The tables, in order. -/
  tables : List RegisterTable
deriving DecidableEq, Repr

/-- Whether each cell after the first is equal to the one before it. A row with at most one cell is
uniform. -/
def Row.isUniform (r : Row) : Bool :=
  go r.cells
where
  /-- Compares neighbouring cells. -/
  go : List String → Bool
    | [] => true
    | [_] => true
    | c :: d :: cells => c == d && go (d :: cells)

/-- The first table of that register. -/
def Report.table? (r : Report) (register : String) : Option RegisterTable :=
  r.tables.find? (·.register = register)

end RegisterTables
