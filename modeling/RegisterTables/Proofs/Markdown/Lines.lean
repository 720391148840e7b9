import RegisterTables.Proofs.Numeral
import RegisterTables.Report.Markdown
import Mathlib.Data.List.Basic

/-!
# The lines of a report

The text of a report is put together from pieces that pay no heed to lines. `Report.toList_markdown`
says which lines it has: each of them is ended by a line end, and if the strings of the report hold
none themselves (`Report.IsPlain`), there are no others (`Report.IsPlain.newline_notMem`).

A row is made in the same way as the whole: each of its parts is ended by a bar.
-/

namespace RegisterTables

/-- A line without its end. -/
abbrev Line := List Char

/-! ### Rows -/

namespace Row

/-- What stands between the bars of a row, nothing in front of the first one. -/
def parts (r : Row) : List (List Char) :=
  [] :: (" `".toList ++ r.field.toList ++ "` ".toList) ::
    r.cells.map fun cell => " ".toList ++ cell.toList ++ " ".toList

/-- The line of a row. -/
def line (r : Row) : Line :=
  r.parts.flatMap (· ++ ['|'])

theorem flatMap_pieces (r : Row) : r.pieces.flatMap String.toList = r.line ++ ['\n'] := by
  have hcells : (r.cells.flatMap fun cell => [" ", cell, " |"]).flatMap String.toList
      = (r.cells.map fun cell => " ".toList ++ cell.toList ++ " ".toList).flatMap (· ++ ['|']) := by
    rw [List.flatMap_assoc, List.flatMap_map]
    exact List.flatMap_congr fun cell _ => by simp
  rw [pieces, List.flatMap_append, List.flatMap_append, hcells, line, parts]
  simp

/-- A row starts with a bar. -/
theorem line_ne_nil (r : Row) : r.line ≠ [] := by
  rw [line, parts, List.flatMap_cons]
  exact List.cons_ne_nil _ _

end Row

/-! ### Tables -/

namespace RegisterTable

/-- The heading of a table. -/
def headingLine (t : RegisterTable) : Line :=
  "## ".toList ++
    ((toString t.index).toList ++ (". Register `".toList ++ t.register.toList ++ ['`']))

/-- The line of a label, which stands in column `i`. -/
def legendLine (i : ℕ) (label : String) : Line :=
  (toString i).toList ++ (". ".toList ++ label.toList)

/-- The lines of labels, the first of which stands in column `i`. -/
def legendLines (i : ℕ) : List String → List Line
  | [] => []
  | label :: labels => legendLine i label :: legendLines (i + 1) labels

/-- The number of a column in the line above the rows. -/
def columnChars (i : ℕ) : List Char :=
  " `".toList ++ (toString i).toList ++ "` |".toList

/-- The line above the rows of a table with `n` columns. -/
def headerLine (n : ℕ) : Line :=
  "| Field\\Env |".toList ++ (List.range n).flatMap columnChars

/-- The line between the header and the rows. -/
def separatorLine (n : ℕ) : Line :=
  '|' :: (List.replicate n "---|".toList).flatten ++ " ---|".toList

/-- The lines of a table. -/
def lines (t : RegisterTable) : List Line :=
  [] :: t.headingLine :: [] :: (legendLines 0 t.environments ++
    [] :: headerLine t.environments.length :: separatorLine t.environments.length ::
      t.rows.map Row.line)

theorem flatMap_legendPieces (i : ℕ) (labels : List String) :
    ((labels.zipIdx i).flatMap fun (label, i) => [toString i, ". ", label, "\n"]).flatMap
        String.toList
      = (legendLines i labels).flatMap (· ++ ['\n']) := by
  induction labels generalizing i with
  | nil => rfl
  | cons label labels ih =>
    rw [List.zipIdx_cons, List.flatMap_cons, List.flatMap_append, ih, legendLines,
      List.flatMap_cons]
    simp [legendLine]

theorem flatMap_columnPieces (n : ℕ) :
    ((List.range n).flatMap fun i => [" `", toString i, "` |"]).flatMap String.toList
      = (List.range n).flatMap columnChars := by
  rw [List.flatMap_assoc]
  apply List.flatMap_congr
  intro i _
  show " `".toList ++ ((toString i).toList ++ ("` |".toList ++ [])) = _
  rw [columnChars, List.append_nil, List.append_assoc]

theorem flatMap_pieces (t : RegisterTable) :
    t.pieces.flatMap String.toList = t.lines.flatMap (· ++ ['\n']) := by
  have hheading : t.headingPieces.flatMap String.toList
      = [[], t.headingLine, []].flatMap (· ++ ['\n']) := by
    simp [headingPieces, headingLine]
  have hlegend : t.legendPieces.flatMap String.toList
      = (legendLines 0 t.environments ++ [[]]).flatMap (· ++ ['\n']) := by
    rw [legendPieces, List.flatMap_append, flatMap_legendPieces, List.flatMap_append]
    rfl
  have hheader : t.headerPieces.flatMap String.toList
      = headerLine t.environments.length ++ ['\n'] := by
    rw [headerPieces, List.flatMap_append, List.flatMap_append,
      flatMap_columnPieces, List.flatMap_singleton, List.flatMap_singleton]
    rfl
  have hseparator : t.separatorPieces.flatMap String.toList
      = separatorLine t.environments.length ++ ['\n'] := by
    rw [separatorPieces, List.flatMap_append, List.flatMap_append, List.flatMap_replicate,
      List.flatMap_singleton, List.flatMap_singleton, separatorLine, List.append_assoc,
      List.append_assoc]
    rfl
  have hrows : (t.rows.flatMap Row.pieces).flatMap String.toList
      = (t.rows.map Row.line).flatMap (· ++ ['\n']) := by
    rw [List.flatMap_assoc, List.flatMap_map]
    exact List.flatMap_congr fun r _ => r.flatMap_pieces
  rw [pieces, List.flatMap_append, List.flatMap_append, List.flatMap_append, List.flatMap_append,
    hheading, hlegend, hheader, hseparator, hrows, lines]
  simp

end RegisterTable

/-! ### Reports -/

namespace Report

/-- The lines of a report. -/
def lines (r : Report) : List Line :=
  ("# ".toList ++ r.title.toList) :: [] :: r.tables.flatMap RegisterTable.lines

/-- **The text of a report** consists of its lines, each with a line end behind it. -/
theorem toList_markdown (r : Report) : r.markdown.toList = r.lines.flatMap (· ++ ['\n']) := by
  have htables : (r.tables.flatMap RegisterTable.pieces).flatMap String.toList
      = (r.tables.flatMap RegisterTable.lines).flatMap (· ++ ['\n']) := by
    rw [List.flatMap_assoc, List.flatMap_assoc]
    exact List.flatMap_congr fun t _ => t.flatMap_pieces
  rw [markdown, String.toList_join, pieces, List.flatMap_append, htables, lines]
  simp

end Report

/-! ### Plain reports -/

/-- The strings of a row hold neither line ends nor bars. -/
structure Row.IsPlain (r : Row) : Prop where
  /-- The field holds no line end. -/
  newline_field : '\n' ∉ r.field.toList
  /-- The field holds no bar. -/
  bar_field : '|' ∉ r.field.toList
  /-- The cells hold no line ends. -/
  newline_cells : ∀ cell ∈ r.cells, '\n' ∉ cell.toList
  /-- The cells hold no bars. -/
  bar_cells : ∀ cell ∈ r.cells, '|' ∉ cell.toList

/-- The strings of a table hold no line ends, and those of its rows no bars. -/
structure RegisterTable.IsPlain (t : RegisterTable) : Prop where
  /-- The register holds no line end. -/
  register : '\n' ∉ t.register.toList
  /-- The labels hold no line ends. -/
  environments : ∀ label ∈ t.environments, '\n' ∉ label.toList
  /-- The rows are plain. -/
  rows : ∀ r ∈ t.rows, r.IsPlain

/-- The strings of a report hold no line ends, and those of its rows no bars. -/
structure Report.IsPlain (r : Report) : Prop where
  /-- The title holds no line end. -/
  title : '\n' ∉ r.title.toList
  /-- The tables are plain. -/
  tables : ∀ t ∈ r.tables, t.IsPlain

instance (r : Row) : Decidable r.IsPlain :=
  decidable_of_iff
    (('\n' ∉ r.field.toList ∧ '|' ∉ r.field.toList) ∧
      (∀ cell ∈ r.cells, '\n' ∉ cell.toList) ∧ ∀ cell ∈ r.cells, '|' ∉ cell.toList)
    ⟨fun h => ⟨h.1.1, h.1.2, h.2.1, h.2.2⟩, fun h => ⟨⟨h.1, h.2⟩, h.3, h.4⟩⟩

instance (t : RegisterTable) : Decidable t.IsPlain :=
  decidable_of_iff
    ('\n' ∉ t.register.toList ∧ (∀ label ∈ t.environments, '\n' ∉ label.toList) ∧
      ∀ r ∈ t.rows, r.IsPlain)
    ⟨fun h => ⟨h.1, h.2.1, h.2.2⟩, fun h => ⟨h.1, h.2, h.3⟩⟩

instance (r : Report) : Decidable r.IsPlain :=
  decidable_of_iff ('\n' ∉ r.title.toList ∧ ∀ t ∈ r.tables, t.IsPlain)
    ⟨fun h => ⟨h.1, h.2⟩, fun h => ⟨h.1, h.2⟩⟩

/-- The parts of a plain row hold no bars. -/
theorem Row.IsPlain.bar_notMem {r : Row} (h : r.IsPlain) : ∀ part ∈ r.parts, '|' ∉ part := by
  intro part hpart
  rw [Row.parts, List.mem_cons, List.mem_cons, List.mem_map] at hpart
  rcases hpart with rfl | rfl | ⟨cell, hcell, rfl⟩
  · exact List.not_mem_nil
  · simpa using h.bar_field
  · simpa using h.bar_cells cell hcell

/-- The line of a plain row holds no line end. -/
theorem Row.IsPlain.newline_notMem {r : Row} (h : r.IsPlain) : '\n' ∉ r.line := by
  rw [Row.line, List.mem_flatMap]
  rintro ⟨part, hpart, hmem⟩
  rw [Row.parts, List.mem_cons, List.mem_cons, List.mem_map] at hpart
  rcases hpart with rfl | rfl | ⟨cell, hcell, rfl⟩
  · exact absurd hmem (by decide)
  · exact h.newline_field (by simpa using hmem)
  · exact h.newline_cells cell hcell (by simpa using hmem)

namespace RegisterTable

theorem newline_notMem_headingLine {t : RegisterTable} (h : t.IsPlain) : '\n' ∉ t.headingLine := by
  have hindex := Text.notMem_toString t.index (c := '\n') rfl
  have hbefore : '\n' ∉ "## ".toList ∧ '\n' ∉ ". Register `".toList ∧ '\n' ∉ ['`'] := by decide
  rw [headingLine]
  simp only [List.mem_append, not_or]
  exact ⟨hbefore.1, hindex, ⟨hbefore.2.1, h.register⟩, hbefore.2.2⟩

theorem newline_notMem_legendLines {labels : List String}
    (h : ∀ label ∈ labels, '\n' ∉ label.toList) (i : ℕ) :
    ∀ l ∈ legendLines i labels, '\n' ∉ l := by
  induction labels generalizing i with
  | nil => simp [legendLines]
  | cons label labels ih =>
    intro l hl
    rcases List.mem_cons.1 hl with rfl | hl
    · have hnumber := Text.notMem_toString i (c := '\n') rfl
      rw [legendLine, List.mem_append, List.mem_append, not_or, not_or]
      exact ⟨hnumber, by decide, h label List.mem_cons_self⟩
    · exact ih (fun label hlabel => h label (List.mem_cons_of_mem _ hlabel)) (i + 1) l hl

theorem newline_notMem_headerLine (n : ℕ) : '\n' ∉ headerLine n := by
  have hcolumn (i : ℕ) : '\n' ∉ columnChars i := by
    have hnumber := Text.notMem_toString i (c := '\n') rfl
    rw [columnChars, List.mem_append, List.mem_append, not_or, not_or]
    exact ⟨⟨by decide, hnumber⟩, by decide⟩
  unfold headerLine
  rw [List.mem_append, List.mem_flatMap, not_or]
  exact ⟨by decide, fun ⟨i, _, hi⟩ => hcolumn i hi⟩

theorem newline_notMem_separatorLine (n : ℕ) : '\n' ∉ separatorLine n := by
  rw [separatorLine, List.mem_append, List.mem_cons, List.mem_flatten, not_or, not_or]
  refine ⟨⟨by decide, ?_⟩, by decide⟩
  rintro ⟨l, hl, hmem⟩
  rw [List.eq_of_mem_replicate hl] at hmem
  exact absurd hmem (by decide)

/-- The lines of a plain table hold no line ends. -/
theorem IsPlain.newline_notMem {t : RegisterTable} (h : t.IsPlain) :
    ∀ l ∈ t.lines, '\n' ∉ l := by
  intro l hl
  rw [lines, List.mem_cons, List.mem_cons, List.mem_cons, List.mem_append, List.mem_cons,
    List.mem_cons, List.mem_cons, List.mem_map] at hl
  rcases hl with rfl | rfl | rfl | hl | rfl | rfl | rfl | ⟨r, hr, rfl⟩
  · exact List.not_mem_nil
  · exact newline_notMem_headingLine h
  · exact List.not_mem_nil
  · exact newline_notMem_legendLines h.environments 0 l hl
  · exact List.not_mem_nil
  · exact newline_notMem_headerLine t.environments.length
  · exact newline_notMem_separatorLine t.environments.length
  · exact (h.rows r hr).newline_notMem

end RegisterTable

/-- **A plain report** has no line ends but those behind its lines. -/
theorem Report.IsPlain.newline_notMem {r : Report} (h : r.IsPlain) : ∀ l ∈ r.lines, '\n' ∉ l := by
  intro l hl
  rw [Report.lines, List.mem_cons, List.mem_cons, List.mem_flatMap] at hl
  rcases hl with rfl | rfl | ⟨t, ht, hl⟩
  · simpa using h.title
  · exact List.not_mem_nil
  · exact (h.tables t ht).newline_notMem l hl

end RegisterTables
