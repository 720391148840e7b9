import RegisterTables.Proofs.Building

/-!
# Cells by row and environment

`RegisterTable.cell?` looks a cell up by its row and by the label of its column, so that tables with
different columns can be compared. In a table with aligned cells it finds what the group answers for
the environment and the field of the row (`ReportOptions.cell?_groupTable`).
-/

namespace RegisterTables

/-- The cell in the row at position `i` and in the column of an environment. -/
def RegisterTable.cell? (t : RegisterTable) (i : ℕ) (environment : String) : Option String := do
  let row ← t.rows[i]?
  let column ← t.environments.idxOf? environment
  row.cells[column]?

/-! ### What a group answers -/

namespace RegisterGroup

variable {g : RegisterGroup} {o : Observation} {environment field : String}

/-- There is an answer if some observation of the environment has the field. -/
theorem isSome_value?_iff :
    (g.value? environment field).isSome ↔
      ∃ o ∈ g.observations, o.environment = environment ∧ field ∈ o.fields.names := by
  -- The observations of the environment are gone through, and one of them must have the field.
  rw [value?, List.findSome?_isSome_iff]
  constructor
  · rintro ⟨o, ho, hfield⟩
    obtain ⟨hmem, henvironment⟩ := List.mem_filter.1 ho
    exact ⟨o, hmem, of_decide_eq_true henvironment, Fields.contains_iff_mem_names.1 hfield⟩
  · rintro ⟨o, hmem, henvironment, hfield⟩
    exact ⟨o, List.mem_filter.2 ⟨hmem, decide_eq_true henvironment⟩,
      Fields.contains_iff_mem_names.2 hfield⟩

/-- If one observation is of the environment, it gives the answer. -/
theorem value?_of_filter_eq (h : g.observations.filter (·.environment = environment) = [o]) :
    g.value? environment field = o.fields.get? field := by
  rw [value?, h, List.findSome?_singleton]

/-- Where all environments are different, an observation is the only one of its own. -/
theorem filter_eq_singleton {l : List Observation}
    (h : (l.map Observation.environment).Nodup) {o : Observation} (ho : o ∈ l) :
    l.filter (·.environment = o.environment) = [o] := by
  induction l with
  | nil => cases ho
  | cons p l ih =>
    obtain ⟨hnot, hnodup⟩ := List.nodup_cons.1 (List.map_cons ▸ h)
    rcases List.mem_cons.1 ho with rfl | ho
    · have hrest : l.filter (·.environment = o.environment) = [] := by
        rw [List.filter_eq_nil_iff]
        intro q hq hsame
        exact hnot (of_decide_eq_true hsame ▸ List.mem_map_of_mem hq)
      rw [List.filter_cons_of_pos (by simp), hrest]
    · have hne : p.environment ≠ o.environment := fun hsame =>
        hnot (hsame ▸ List.mem_map_of_mem ho)
      rw [List.filter_cons_of_neg (by simpa using hne), ih hnodup ho]

/-- In the order of the source, no observation is left out of a row for its environment. -/
theorem sourceOrderCells_environments :
    g.sourceOrderCells g.environments field = g.observations.filterMap (·.fields.get? field) := by
  have hall : g.observations.filter (·.environment ∈ g.environments) = g.observations := by
    refine List.filter_eq_self.2 fun p hp => ?_
    exact decide_eq_true (mem_environments.2 ⟨p, hp, rfl⟩)
  rw [sourceOrderCells, hall]

end RegisterGroup

/-! ### Cells of the table of a group -/

/-- Looking a label up, and then its image at the same position. -/
theorem idxOf?_bind_getElem?_map (f : String → String) (labels : List String) (label : String) :
    ((labels.idxOf? label).bind fun i => (labels.map f)[i]?)
      = if label ∈ labels then some (f label) else none := by
  cases hlabel : labels.idxOf? label with
  | none =>
    rw [Option.bind_none, if_neg (List.idxOf?_eq_none_iff.1 hlabel)]
  | some i =>
    obtain ⟨hi, rfl, -⟩ := List.idxOf?_eq_some_iff.1 hlabel
    rw [Option.bind_some, if_pos (List.getElem_mem hi), List.getElem?_map,
      List.getElem?_eq_getElem hi, Option.map_some]

namespace ReportOptions

variable {options : ReportOptions} {g : RegisterGroup} {number : ℕ}

/-- With no row left out, there is a row for each field of the first observation. -/
theorem rows_groupTable (hdiffering : options.differingOnly = false) :
    (options.groupTable number g).rows
      = g.fieldOrder.map fun field => ⟨field, g.cells options.policy g.environments field⟩ := by
  simp only [groupTable, hdiffering, Bool.false_eq_true, if_false]

theorem map_field_rows_groupTable (hdiffering : options.differingOnly = false) :
    (options.groupTable number g).rows.map Row.field = g.fieldOrder := by
  rw [rows_groupTable hdiffering, List.map_map]
  exact List.map_id _

/-- **The cells of a table** with aligned cells are the answers of its group. -/
theorem cell?_groupTable (hpolicy : options.policy = .aligned)
    (hdiffering : options.differingOnly = false) (i : ℕ) (environment : String) :
    (options.groupTable number g).cell? i environment
      = g.fieldOrder[i]?.bind fun field =>
          if environment ∈ g.environments then some ((g.value? environment field).getD "")
          else none := by
  rw [RegisterTable.cell?, rows_groupTable hdiffering, List.getElem?_map, hpolicy]
  cases g.fieldOrder[i]? with
  | none => rfl
  | some field =>
    exact idxOf?_bind_getElem?_map (fun label => (g.value? label field).getD "") g.environments
      environment

/-- An answer of the group stands in its row and column. -/
theorem cell?_groupTable_eq_some (hpolicy : options.policy = .aligned)
    (hdiffering : options.differingOnly = false) {i : ℕ} {environment field value : String}
    (hfield : g.fieldOrder[i]? = some field) (hvalue : g.value? environment field = some value) :
    (options.groupTable number g).cell? i environment = some value := by
  have hsome : (g.value? environment field).isSome := by
    rw [hvalue, Option.isSome_some]
  obtain ⟨o, ho, henvironment, -⟩ := RegisterGroup.isSome_value?_iff.1 hsome
  have hcolumn : environment ∈ g.environments :=
    RegisterGroup.mem_environments.2 ⟨o, ho, henvironment⟩
  rw [cell?_groupTable hpolicy hdiffering, hfield, Option.bind_some, if_pos hcolumn, hvalue,
    Option.getD_some]

/-- Aligned rows have as many cells as there are columns. -/
theorem length_cells_groupTable (hpolicy : options.policy = .aligned)
    (hdiffering : options.differingOnly = false) :
    ∀ row ∈ (options.groupTable number g).rows,
      row.cells.length = (options.groupTable number g).environments.length := by
  intro row hrow
  rw [rows_groupTable hdiffering, hpolicy] at hrow
  obtain ⟨field, -, rfl⟩ := List.mem_map.1 hrow
  exact List.length_map ..

end ReportOptions

end RegisterTables
