import RegisterTables.Proofs.Markdown.Lines
import Mathlib.Data.List.Basic

/-!
# Reading a report back

`Report.decode?` reads the text of a report line by line: the title, and for each table its heading,
the numbered labels up to a blank line, the header and the separator, which the labels determine,
and the rows up to the next blank line or the end. `Report.markdown_decodes` says that it gives back
every plain report, so that plain reports with the same text are the same.

Nothing in the text is escaped or counted, so all depends on where a run of lines ends. A label
stands behind a number and a row behind a bar, whatever they hold, and so none of them is taken for
the blank line behind the run (`Text.takeWhile_append_of_head?`). Within a line, the texts stand
between marks that are known, except for the cells of a row, which hold no bar.
-/

namespace RegisterTables

/-! ### Parts of a text -/

/-- The parts of a text that are each ended by a mark. What follows the last mark is dropped. -/
def endedBy (mark : Char) (cs : List Char) : List (List Char) :=
  (cs.splitOn mark).dropLast

/-- What stands between two texts. -/
def between? (before after cs : List Char) : Option (List Char) :=
  (cs.dropPrefix? before).bind (·.dropSuffix? after)

/-- The number in front of a text. -/
def number? (cs : List Char) : Option (ℕ × List Char) :=
  if (cs.takeWhile Char.isDigit).isEmpty then none
  else some (Text.valueIn 10 (cs.takeWhile Char.isDigit), cs.dropWhile Char.isDigit)

/-- Parts that do not hold the mark are found again. -/
theorem endedBy_flatMap {mark : Char} {parts : List (List Char)} (h : ∀ part ∈ parts, mark ∉ part) :
    endedBy mark (parts.flatMap (· ++ [mark])) = parts := by
  have hsplit : (parts.flatMap (· ++ [mark])).splitOn mark = parts ++ [[]] := by
    induction parts with
    | nil => rfl
    | cons part parts ih =>
      rw [List.flatMap_cons, List.append_assoc, List.singleton_append,
        List.splitOn_append_cons_self_of_not_mem (h part List.mem_cons_self),
        ih fun p hp => h p (List.mem_cons_of_mem _ hp), List.cons_append]
  rw [endedBy, hsplit, List.dropLast_concat]

theorem dropPrefix?_append (before cs : List Char) : (before ++ cs).dropPrefix? before = some cs :=
  List.dropPrefix?_append_of_beq cs (beq_self_eq_true before)

theorem between?_append (before cs after : List Char) :
    between? before after (before ++ cs ++ after) = some cs := by
  rw [between?, List.append_assoc, dropPrefix?_append, Option.bind_some,
    List.dropSuffix?_eq_some_iff]
  exact ⟨after, rfl, beq_self_eq_true after⟩

/-- A number is read in front of anything but a digit. -/
theorem number?_append (n : ℕ) (cs : List Char) (h : ∀ c ∈ cs.head?, c.isDigit = false) :
    number? ((toString n).toList ++ cs) = some (n, cs) := by
  obtain ⟨htake, hdrop⟩ := Text.takeWhile_append_of_head?
    (fun c hc => Text.isDigit_of_mem_toDigits (n := n) hc) h
  rw [Nat.toString_eq_repr, Nat.toList_repr, number?, htake, hdrop, Text.valueIn_toDigits,
    if_neg (by simp [Nat.toDigits_ne_nil])]

/-! ### The decoder -/

/-- Reads a row. -/
def Row.decode? (line : Line) : Option Row :=
  match endedBy '|' line with
  | [] :: field :: cells => do
    let field ← between? " `".toList "` ".toList field
    let cells ← cells.mapM (between? " ".toList " ".toList)
    return ⟨String.ofList field, cells.map String.ofList⟩
  | _ => none

namespace RegisterTable

/-- Reads a heading: the number of the table, and the register. -/
def heading? (line : Line) : Option (ℕ × String) := do
  let (index, rest) ← number? (← line.dropPrefix? "## ".toList)
  let register ← between? ". Register `".toList ['`'] rest
  return (index, String.ofList register)

/-- Reads labels, which bear numbers from `i` on. -/
def legend? (i : ℕ) : List Line → Option (List String)
  | [] => some []
  | line :: lines => do
    let (n, rest) ← number? line
    let label ← rest.dropPrefix? ". ".toList
    if n = i then return String.ofList label :: (← legend? (i + 1) lines) else none

/-- Reads tables. -/
def decodeAll? : List Line → Option (List RegisterTable)
  | [] => some []
  | [] :: heading :: [] :: lines =>
    match _h : lines.dropWhile (!·.isEmpty) with
    | [] :: header :: separator :: rest => do
      let (index, register) ← heading? heading
      let environments ← legend? 0 (lines.takeWhile (!·.isEmpty))
      let columns := environments.length
      if header = headerLine columns ∧ separator = separatorLine columns then
        let rows ← (rest.takeWhile (!·.isEmpty)).mapM Row.decode?
        return ⟨index, register, environments, rows⟩ :: (← decodeAll? (rest.dropWhile (!·.isEmpty)))
      else none
    | _ => none
  | _ => none
termination_by lines => lines.length
decreasing_by
  have hlines := (List.dropWhile_suffix (!·.isEmpty) (l := lines)).length_le
  have hrest := (List.dropWhile_suffix (!·.isEmpty) (l := rest)).length_le
  rw [_h] at hlines
  simp only [List.length_cons] at hlines ⊢
  omega

end RegisterTable

/-- Reads the text of a report. -/
def Report.decode? (text : String) : Option Report :=
  match endedBy '\n' text.toList with
  | title :: [] :: lines => do
    let title ← title.dropPrefix? "# ".toList
    return ⟨String.ofList title, ← RegisterTable.decodeAll? lines⟩
  | _ => none

/-! ### What it gives back -/

/-- A plain row is read from its line. -/
theorem Row.decode?_line {r : Row} (h : r.IsPlain) : Row.decode? r.line = some r := by
  have hparts : endedBy '|' r.line = r.parts := endedBy_flatMap h.bar_notMem
  have hcells : (r.cells.map fun cell => " ".toList ++ cell.toList ++ " ".toList).mapM
      (between? " ".toList " ".toList) = some (r.cells.map String.toList) := by
    induction r.cells with
    | nil => rfl
    | cons cell cells ih =>
      rw [List.map_cons, List.mapM_cons, ih, between?_append]
      rfl
  have hsame : (r.cells.map String.toList).map String.ofList = r.cells := by
    rw [List.map_map]
    exact (List.map_congr_left fun cell _ => String.ofList_toList).trans (List.map_id r.cells)
  rw [decode?, hparts, parts]
  simp only [between?_append, bind, Option.bind, hcells, hsame, String.ofList_toList]
  rfl

theorem mapM_decode?_line {rows : List Row} (h : ∀ r ∈ rows, r.IsPlain) :
    (rows.map Row.line).mapM Row.decode? = some rows := by
  induction rows with
  | nil => rfl
  | cons r rows ih =>
    rw [List.map_cons, List.mapM_cons, Row.decode?_line (h r List.mem_cons_self),
      ih fun r' hr' => h r' (List.mem_cons_of_mem _ hr')]
    rfl

namespace RegisterTable

/-- A heading is read. -/
theorem heading?_headingLine (t : RegisterTable) :
    heading? t.headingLine = some (t.index, t.register) := by
  have hnumber :=
    number?_append t.index (". Register `".toList ++ t.register.toList ++ ['`']) (by simp)
  rw [heading?, headingLine, dropPrefix?_append]
  simp only [bind, Option.bind, hnumber, between?_append, String.ofList_toList]
  rfl

/-- Labels are read with their numbers. -/
theorem legend?_legendLines (i : ℕ) (labels : List String) :
    legend? i (legendLines i labels) = some labels := by
  induction labels generalizing i with
  | nil => rfl
  | cons label labels ih =>
    have hnumber := number?_append i (". ".toList ++ label.toList) (by simp)
    rw [legendLines, legend?, legendLine, hnumber]
    simp only [bind, Option.bind, dropPrefix?_append, ih, String.ofList_toList, if_true]
    rfl

/-- The lines of labels are not blank. -/
theorem isEmpty_legendLines (i : ℕ) (labels : List String) :
    ∀ l ∈ legendLines i labels, (!l.isEmpty) = true := by
  induction labels generalizing i with
  | nil => simp [legendLines]
  | cons label labels ih =>
    intro l hl
    rcases List.mem_cons.1 hl with rfl | hl
    · obtain ⟨c, cs, hcons⟩ := List.exists_cons_of_ne_nil (Nat.toDigits_ne_nil (n := i) (b := 10))
      rw [legendLine, Nat.toString_eq_repr, Nat.toList_repr, hcons]
      rfl
    · exact ih (i + 1) l hl

/-- The lines of a table are read up to the next one. -/
theorem decodeAll?_lines {t : RegisterTable} (h : t.IsPlain) {rest : List Line}
    (hrest : ∀ l ∈ rest.head?, l = []) :
    decodeAll? (t.lines ++ rest) = (decodeAll? rest).map (t :: ·) := by
  let table : List Line :=
    [] :: headerLine t.environments.length :: separatorLine t.environments.length ::
      (t.rows.map Row.line ++ rest)
  have hblank : ∀ l ∈ table.head?, (!l.isEmpty) = false := by
    simp [table]
  have hend : ∀ l ∈ rest.head?, (!l.isEmpty) = false := by
    intro l hl
    rw [hrest l hl]
    rfl
  have hrow : ∀ l ∈ t.rows.map Row.line, (!l.isEmpty) = true := by
    simp [Row.line_ne_nil]
  have hlegend :=
    Text.takeWhile_append_of_head? (isEmpty_legendLines 0 t.environments) hblank
  have hrows := Text.takeWhile_append_of_head? hrow hend
  have hlines : t.lines ++ rest
      = [] :: t.headingLine :: [] :: (legendLines 0 t.environments ++ table) := by
    rw [lines]
    simp only [table, List.cons_append, List.append_assoc]
  rw [hlines, decodeAll?, hlegend.1]
  -- The labels end at the blank line in front of the header.
  split
  · next header separator tail heq =>
    rw [hlegend.2, List.cons.injEq, List.cons.injEq, List.cons.injEq] at heq
    obtain ⟨-, rfl, rfl, rfl⟩ := heq
    rw [hrows.1, hrows.2]
    simp only [bind, Option.bind, heading?_headingLine, legend?_legendLines,
      mapM_decode?_line h.rows, and_self, if_true]
    cases decodeAll? rest <;> rfl
  · next hnot => exact absurd hlegend.2 (hnot _ _ _)

/-- The lines of plain tables are read. -/
theorem decodeAll?_flatMap {ts : List RegisterTable} (h : ∀ t ∈ ts, t.IsPlain) :
    decodeAll? (ts.flatMap lines) = some ts := by
  induction ts with
  | nil => rw [List.flatMap_nil, decodeAll?]
  | cons t ts ih =>
    have hnext : ∀ l ∈ (ts.flatMap lines).head?, l = [] := by
      cases ts with
      | nil => simp
      | cons t ts => simp [lines]
    rw [List.flatMap_cons, decodeAll?_lines (h t List.mem_cons_self) hnext,
      ih fun t' ht' => h t' (List.mem_cons_of_mem _ ht')]
    rfl

end RegisterTable

namespace Report

/-- A plain report is read from its text. -/
theorem decode?_markdown {r : Report} (h : r.IsPlain) : decode? r.markdown = some r := by
  have hlines : endedBy '\n' r.markdown.toList = r.lines := by
    rw [toList_markdown, endedBy_flatMap h.newline_notMem]
  have htables := RegisterTable.decodeAll?_flatMap h.tables
  rw [decode?, hlines, lines]
  simp only [bind, Option.bind, dropPrefix?_append, htables, String.ofList_toList]
  rfl

/-- **The text of a plain report can be read back.** The decoder gives back the report, and hence no
other plain report has the same text. -/
theorem markdown_decodes {r : Report} (h : r.IsPlain) :
    decode? r.markdown = some r ∧
      ∀ r' : Report, r'.IsPlain → r'.markdown = r.markdown → r' = r := by
  refine ⟨decode?_markdown h, ?_⟩
  intro r' h' htext
  have hread : some r' = some r := by
    rw [← decode?_markdown h', htext, decode?_markdown h]
  exact Option.some.inj hread

/-- A report whose strings look like other parts of the layout, and whose rows are ragged. -/
def misleading : Report where
  title := "# 0. Register"
  tables :=
    [⟨12, "A`|", ["", "## 0. Register `B`"], [⟨"` ---", ["", "## 1", " `0` "]⟩, ⟨"", []⟩]⟩,
     ⟨12, "", [], [⟨"C", ["---"]⟩]⟩]

/-- Such a report is read back as well. -/
theorem markdown_decodes_misleading :
    misleading.IsPlain ∧ decode? misleading.markdown = some misleading ∧
      ∀ r' : Report, r'.IsPlain → r'.markdown = misleading.markdown → r' = misleading :=
  ⟨by decide, markdown_decodes (by decide)⟩

end Report

end RegisterTables
