import RegisterTables.Proofs.Building
import RegisterTables.Proofs.ByteOrder

/-!
# A report is a pivot of the flat list

With cells aligned to their columns, and nothing filtered, a report says the same as the list of
observations that it was built from, table by table and cell by cell. `Report.IsPivotOf` describes
it by the list alone, without groups and without an index of environments, and
`build_aligned_isPivotOf` says that building yields the one report of that description.

The description fixes a report because its order is fixed: registers and columns ascend by their
bytes, and rows follow the first observation of their register (`Report.IsPivotOf.unique`). That
the built report meets it comes from reading each group off the list
(`RegisterGroup.ofRegister`).
-/

namespace RegisterTables

/-- What an environment reported for a field of a register: the value in the first observation of
that register and environment that has the field. -/
def reportedValue? (l : List Observation) (register environment field : String) : Option String :=
  (l.find? fun o => o.register = register ∧ o.environment = environment ∧
    field ∈ o.fields.names).bind (·.fields.get? field)

/-- The table is the one of its register, by the list alone. -/
structure RegisterTable.IsPivotOf (t : RegisterTable) (l : List Observation) : Prop where
  /-- The columns ascend, and none is there twice. -/
  columns_ascending : t.environments.Pairwise fun a b => Text.bytes a < Text.bytes b
  /-- The columns are the environments that reported the register. -/
  mem_columns : ∀ label, label ∈ t.environments ↔
    ∃ o ∈ l, o.register = t.register ∧ o.environment = label
  /-- The rows are the fields of the first observation of the register, repeats included. -/
  fields : (l.find? (·.register = t.register)).map (·.fields.names) = some (t.rows.map Row.field)
  /-- A row has as many cells as there are columns. -/
  length_cells : ∀ row ∈ t.rows, row.cells.length = t.environments.length
  /-- A cell holds what its column's environment reported, or nothing. -/
  cell : ∀ row ∈ t.rows, ∀ (i : ℕ) (environment : String), t.environments[i]? = some environment →
    row.cells[i]? = some ((reportedValue? l t.register environment row.field).getD "")

/-- The report has that title and compares all registers of the list, by the list alone. -/
structure Report.IsPivotOf (r : Report) (title : String) (l : List Observation) : Prop where
  /-- The title is kept. -/
  title_eq : r.title = title
  /-- The registers ascend, and none has two tables. -/
  registers_ascending :
    (r.tables.map RegisterTable.register).Pairwise fun a b => Text.bytes a < Text.bytes b
  /-- There is a table for each register that occurs. -/
  mem_registers : ∀ register, register ∈ r.tables.map RegisterTable.register ↔
    ∃ o ∈ l, o.register = register
  /-- The tables are numbered in their order from zero. -/
  numbered : r.tables.map RegisterTable.index = List.range r.tables.length
  /-- Each table is that of its register. -/
  tables : ∀ t ∈ r.tables, t.IsPivotOf l

/-! ### The description fixes the report -/

/-- Lists that ascend by their bytes and have the same members are equal. -/
theorem eq_of_bytes_ascending {l m : List String}
    (hl : l.Pairwise fun a b => Text.bytes a < Text.bytes b)
    (hm : m.Pairwise fun a b => Text.bytes a < Text.bytes b) (h : ∀ s, s ∈ l ↔ s ∈ m) : l = m :=
  (hl.imp Text.bytes_lt_iff.1).eq_of_mem_iff (hm.imp Text.bytes_lt_iff.1) h

/-- Lists that agree under a function agree under it at each position. -/
theorem apply_getElem_of_map_eq {α β : Type} {f : α → β} {l m : List α} (h : l.map f = m.map f)
    {i : ℕ} (hl : i < l.length) (hm : i < m.length) : f l[i] = f m[i] := by
  have hi := congrArg (·[i]?) h
  simpa only [List.getElem?_map, List.getElem?_eq_getElem hl, List.getElem?_eq_getElem hm,
    Option.map_some, Option.some.injEq] using hi

/-- Two tables of one number and register that are pivots of the same list are equal. -/
theorem RegisterTable.IsPivotOf.unique {t t' : RegisterTable} {l : List Observation}
    (h : t.IsPivotOf l) (h' : t'.IsPivotOf l) (hindex : t.index = t'.index)
    (hregister : t.register = t'.register) : t = t' := by
  have hcolumns : t.environments = t'.environments := by
    apply eq_of_bytes_ascending h.columns_ascending h'.columns_ascending
    intro label
    rw [h.mem_columns, h'.mem_columns, hregister]
  have hfields : t.rows.map Row.field = t'.rows.map Row.field := by
    have hsome := h.fields
    rw [hregister, h'.fields] at hsome
    exact (Option.some.inj hsome).symm
  have hlength : t.rows.length = t'.rows.length := by
    simpa only [List.length_map] using congrArg List.length hfields
  have hrows : t.rows = t'.rows := by
    apply List.ext_getElem hlength
    intro i hi hi'
    have hfield : t.rows[i].field = t'.rows[i].field := apply_getElem_of_map_eq hfields hi hi'
    have hmem := List.getElem_mem hi
    have hmem' := List.getElem_mem hi'
    apply Row.ext hfield
    ext1 j
    by_cases hj : j < t.environments.length
    · rw [h.cell _ hmem j _ (List.getElem?_eq_getElem hj),
        h'.cell _ hmem' j t.environments[j] (by rw [← hcolumns, List.getElem?_eq_getElem hj]),
        hregister, hfield]
    · rw [List.getElem?_eq_none (by rw [h.length_cells _ hmem]; omega),
        List.getElem?_eq_none (by rw [h'.length_cells _ hmem', ← hcolumns]; omega)]
  exact RegisterTable.ext hindex hregister hcolumns hrows

/-- At most one report is the pivot of a list under a title. -/
theorem Report.IsPivotOf.unique {r r' : Report} {title : String} {l : List Observation}
    (h : r.IsPivotOf title l) (h' : r'.IsPivotOf title l) : r = r' := by
  have hregisters : r.tables.map RegisterTable.register = r'.tables.map RegisterTable.register := by
    apply eq_of_bytes_ascending h.registers_ascending h'.registers_ascending
    intro register
    rw [h.mem_registers, h'.mem_registers]
  have hlength : r.tables.length = r'.tables.length := by
    simpa only [List.length_map] using congrArg List.length hregisters
  have hindices : r.tables.map RegisterTable.index = r'.tables.map RegisterTable.index := by
    rw [h.numbered, h'.numbered, hlength]
  apply Report.ext (h.title_eq.trans h'.title_eq.symm)
  apply List.ext_getElem hlength
  intro i hi hi'
  exact (h.tables _ (List.getElem_mem hi)).unique (h'.tables _ (List.getElem_mem hi'))
    (apply_getElem_of_map_eq hindices hi hi') (apply_getElem_of_map_eq hregisters hi hi')

/-! ### The built report meets the description -/

/-- The first value that is found belongs to the first element that has one. -/
theorem findSome?_eq_find?_bind {α β : Type} (f : α → Option β) (l : List α) :
    l.findSome? f = (l.find? fun a => (f a).isSome).bind f := by
  induction l with
  | nil => rfl
  | cons a l ih =>
    rw [List.findSome?_cons, List.find?_cons]
    cases ha : f a with
    | none => simpa using ih
    | some b => simp [ha]

/-- The group of a register answers for an environment as the list does. -/
theorem RegisterGroup.value?_ofRegister (l : List Observation)
    (register environment field : String) :
    (ofRegister l register).value? environment field
      = reportedValue? l register environment field := by
  rw [value?, ofRegister, findSome?_eq_find?_bind, List.find?_filter, List.find?_filter,
    reportedValue?]
  have hsame (o : Observation) :
      (o.fields.get? field).isSome = decide (field ∈ o.fields.names) := by
    rw [Bool.eq_iff_iff, decide_eq_true_iff, ← Fields.contains_iff_mem_names, Fields.contains]
  simp only [hsame, Bool.decide_and, Bool.decide_eq_true]

/-- The rows of a group are the fields of the first observation of its register. -/
theorem RegisterGroup.find?_eq_some_fieldOrder {l : List Observation} {register : String}
    (h : ∃ o ∈ l, o.register = register) :
    (l.find? (·.register = register)).map (·.fields.names)
      = some (ofRegister l register).fieldOrder := by
  obtain ⟨o, ho, hregister⟩ := h
  have hsome : (l.find? (·.register = register)).isSome := by
    rw [List.find?_isSome]
    exact ⟨o, ho, by simpa using hregister⟩
  obtain ⟨first, hfirst⟩ := Option.isSome_iff_exists.1 hsome
  rw [ofRegister, hfirst, Option.map_some, Option.getD_some]

/-- The table of a group is a pivot of the list if its cells are aligned and all its rows kept. -/
theorem ReportOptions.isPivotOf_table {options : ReportOptions} {l : List Observation}
    {register : String} (hpolicy : options.policy = .aligned)
    (hdiffering : options.differingOnly = false) (h : ∃ o ∈ l, o.register = register) (number : ℕ) :
    (options.table (.ofObservations l) number (.ofRegister l register)).IsPivotOf l := by
  have hcolumns : (EnvironmentIndex.ofObservations l).restrict (.ofRegister l register)
      = (RegisterGroup.ofRegister l register).environments :=
    EnvironmentIndex.restrict_ofObservations fun o ho =>
      (RegisterGroup.mem_observations_ofRegister.1 ho).1
  have htable : options.table (.ofObservations l) number (.ofRegister l register) =
      { index := number
        register := register
        environments := (RegisterGroup.ofRegister l register).environments
        rows := (RegisterGroup.ofRegister l register).fieldOrder.map fun field =>
          ⟨field, (RegisterGroup.ofRegister l register).environments.map fun environment =>
            (reportedValue? l register environment field).getD ""⟩ } := by
    rw [table, hcolumns, hpolicy, hdiffering]
    simp only [RegisterGroup.cells, RegisterGroup.alignedCells, RegisterGroup.value?_ofRegister]
    rfl
  rw [htable]
  constructor
  · -- The environments of a group ascend.
    exact (RegisterGroup.pairwise_environments _).imp Text.bytes_lt_iff.2
  · intro label
    exact RegisterGroup.mem_environments_ofRegister
  · rw [RegisterGroup.find?_eq_some_fieldOrder h, List.map_map]
    exact congrArg some (List.map_id _).symm
  · intro row hrow
    obtain ⟨field, -, rfl⟩ := List.mem_map.1 hrow
    exact List.length_map ..
  · intro row hrow i environment hi
    obtain ⟨field, -, rfl⟩ := List.mem_map.1 hrow
    rw [List.getElem?_map, hi, Option.map_some]

/-- The report that is built is a pivot of the list. -/
theorem ReportOptions.isPivotOf_tables {options : ReportOptions} {l : List Observation}
    (hpolicy : options.policy = .aligned) (hdiffering : options.differingOnly = false) :
    Report.IsPivotOf ⟨options.title, options.tables (.ofObservations l) (groupObservations l)⟩
      options.title l := by
  constructor
  · rfl
  · rw [map_register_tables, map_register_groupObservations]
    exact (Ascending.pairwise_ofList _).imp Text.bytes_lt_iff.2
  · intro register
    rw [map_register_tables, map_register_groupObservations, Ascending.mem_ofList, List.mem_map]
  · rw [map_index_tables, length_tables]
  · -- A table is made of the group at its position, which is that of its register.
    intro t ht
    obtain ⟨i, hi⟩ := List.mem_iff_getElem?.1 ht
    rw [getElem?_tables] at hi
    obtain ⟨g, hg, rfl⟩ := Option.map_eq_some_iff.1 hi
    obtain ⟨hregister, hofRegister⟩ := exists_of_mem_groupObservations (List.mem_of_getElem? hg)
    rw [hofRegister]
    exact isPivotOf_table hpolicy hdiffering hregister i

/-- **A report is the pivot of its list.** On observations that can be reported, building with
aligned cells and nothing left out succeeds, and it yields the one report that is the pivot of the
list. -/
theorem build_aligned_isPivotOf {options : ReportOptions} {l : List Observation}
    (hpolicy : options.policy = .aligned) (hregisters : options.registers = [])
    (hdiffering : options.differingOnly = false)
    (hl : ∀ o ∈ l, o.environment ≠ "" ∧ o.register ≠ "") :
    ∃ r, (options.build l).result = .ok r ∧ ∀ r', r'.IsPivotOf options.title l ↔ r' = r := by
  have hpivot := options.isPivotOf_tables (l := l) hpolicy hdiffering
  refine ⟨_, options.result_build_of_registers_nil hregisters hl, ?_⟩
  intro r'
  constructor
  · intro hr'
    exact hr'.unique hpivot
  · rintro rfl
    exact hpivot

/-- An environment that reports twice, a field that only the second report has, and a register
between the reports of another one. -/
theorem build_aligned_isPivotOf_repeated :
    let l : List Observation :=
      [⟨"b", "R", ⟨[("x", "1"), ("y", "2"), ("x", "3")]⟩⟩, ⟨"a", "Q", ⟨[]⟩⟩,
        ⟨"a", "R", ⟨[("z", "4")]⟩⟩, ⟨"a", "R", ⟨[("x", "5")]⟩⟩]
    (∀ o ∈ l, o.environment ≠ "" ∧ o.register ≠ "") ∧
      ∃ r, (({} : ReportOptions).build l).result = .ok r ∧
        ∀ r', r'.IsPivotOf "Some system registers" l ↔ r' = r :=
  ⟨by decide, build_aligned_isPivotOf rfl rfl rfl (by decide)⟩

end RegisterTables
