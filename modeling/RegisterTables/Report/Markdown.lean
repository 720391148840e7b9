import RegisterTables.Report.Basic

/-!
# Reports as Markdown

The text of a report is made of small pieces, so that it can be written without being held in memory
as a whole. Columns bear numbers, and a legend above each table maps the numbers to the labels:

    ## 0. Register `MAIR_EL1`

    0. Environment A
    1. Environment B

    | Field\Env | `0` | `1` |
    |---|---| ---|
    | `value` | [00] | [44] |

The separator line has one cell per column and, after a space, one more. Nothing is escaped.
-/

namespace RegisterTables

/-- A row: the field between backticks, then each cell between spaces. -/
def Row.pieces (r : Row) : List String :=
  ["| `", r.field, "` |"] ++ r.cells.flatMap (fun cell => [" ", cell, " |"]) ++ ["\n"]

namespace RegisterTable

/-- The heading of a table, with a blank line before and after it. -/
def headingPieces (t : RegisterTable) : List String :=
  ["\n## ", toString t.index, ". Register `", t.register, "`\n\n"]

/-- The numbered labels, one a line, and a blank line. -/
def legendPieces (t : RegisterTable) : List String :=
  t.environments.zipIdx.flatMap (fun (label, i) => [toString i, ". ", label, "\n"]) ++ ["\n"]

/-- The line above the rows: the numbers of the columns. -/
def headerPieces (t : RegisterTable) : List String :=
  ["| Field\\Env |"] ++
    (List.range t.environments.length).flatMap (fun i => [" `", toString i, "` |"]) ++ ["\n"]

/-- The line between the header and the rows. -/
def separatorPieces (t : RegisterTable) : List String :=
  ["|"] ++ List.replicate t.environments.length "---|" ++ [" ---|\n"]

/-- The text of a table in pieces. -/
def pieces (t : RegisterTable) : List String :=
  t.headingPieces ++ t.legendPieces ++ t.headerPieces ++ t.separatorPieces ++
    t.rows.flatMap Row.pieces

/-- The text of a table. -/
def markdown (t : RegisterTable) : String :=
  String.join t.pieces

end RegisterTable

namespace Report

/-- The text of a report in pieces: the title, then the tables. -/
def pieces (r : Report) : List String :=
  ["# ", r.title, "\n\n"] ++ r.tables.flatMap RegisterTable.pieces

/-- The text of a report. -/
def markdown (r : Report) : String :=
  String.join r.pieces

end Report

end RegisterTables
