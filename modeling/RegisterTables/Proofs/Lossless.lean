import RegisterTables.Proofs.Cells
import Mathlib.Data.List.Nodup

/-!
# Without a warning nothing is lost

The cells of a table and the warnings about it are made independently of each other.
`build_lossless` says that they belong together: if building with aligned cells logs no warning,
then each observation can be read off its table, and each cell is a value of an observation, so none
is a filler.

A table loses something in three ways: an observation has a field without a row, it lacks a field
that has one, or it hides behind an earlier one of its environment. By
`RegisterGroup.warnings_eq_nil_iff`, a group without a warning is one where none of them occurs.
-/

namespace RegisterTables

/-! ### Groups without warnings -/

namespace RegisterGroup

variable {g : RegisterGroup}

/-- No warning is given about an observation with the same field names as the first one. -/
theorem fieldSetWarning?_eq_none_iff {o : Observation} :
    g.fieldSetWarning? o = none ↔ ∀ field, field ∈ o.fields.names ↔ field ∈ g.fieldOrder := by
  have hmissing : Ascending.diff (Ascending.ofList g.fieldOrder) (Ascending.ofList o.fields.names)
      = [] ↔ ∀ field ∈ g.fieldOrder, field ∈ o.fields.names := by
    simp [List.eq_nil_iff_forall_not_mem]
  have hextra : Ascending.diff (Ascending.ofList o.fields.names) (Ascending.ofList g.fieldOrder)
      = [] ↔ ∀ field ∈ o.fields.names, field ∈ g.fieldOrder := by
    simp [List.eq_nil_iff_forall_not_mem]
  unfold fieldSetWarning?
  simp only [hmissing, hextra, ite_eq_left_iff, reduceCtorEq, imp_false, not_not]
  constructor
  · rintro ⟨hfirst, hlater⟩ field
    exact ⟨hlater field, hfirst field⟩
  · intro hsame
    exact ⟨fun field => (hsame field).2, fun field => (hsame field).1⟩

/-- No warning is given about environments that are all different, and not among those met
before. -/
theorem repeatWarnings_eq_nil_iff {register : String} {seen : List String} {l : List Observation} :
    repeatWarnings register seen l = [] ↔
      (l.map Observation.environment).Nodup ∧ ∀ o ∈ l, o.environment ∉ seen := by
  induction l generalizing seen with
  | nil => simp [repeatWarnings]
  | cons o l ih =>
    rw [repeatWarnings, List.map_cons, List.nodup_cons, List.forall_mem_cons]
    -- The environment of `o` joins those met before, so the rest must be different from it.
    split_ifs with ho
    · simp [ho]
    · rw [ih]
      constructor
      · rintro ⟨hnodup, hnew⟩
        refine ⟨⟨?_, hnodup⟩, ho, fun p hp hseen => ?_⟩
        · intro hmem
          obtain ⟨p, hp, hsame⟩ := List.mem_map.1 hmem
          exact hnew p hp (hsame ▸ List.mem_cons_self)
        · exact hnew p hp (List.mem_cons_of_mem _ hseen)
      · rintro ⟨⟨hnot, hnodup⟩, -, hnew⟩
        refine ⟨hnodup, fun p hp hmem => ?_⟩
        rcases List.mem_cons.1 hmem with hsame | hseen
        · exact hnot (hsame ▸ List.mem_map_of_mem hp)
        · exact hnew p hp hseen

/-- **A group without warnings** is one whose observations all have the same field names and come
from different environments. -/
theorem warnings_eq_nil_iff :
    g.warnings = [] ↔
      (∀ o ∈ g.observations.drop 1, ∀ field, field ∈ o.fields.names ↔ field ∈ g.fieldOrder) ∧
        (g.observations.map Observation.environment).Nodup := by
  rw [warnings, List.append_eq_nil_iff, List.filterMap_eq_nil_iff, repeatWarnings_eq_nil_iff]
  simp only [fieldSetWarning?_eq_none_iff, List.not_mem_nil, not_false_iff, implies_true, and_true]

theorem level_of_mem_repeatWarnings {register : String} {seen : List String}
    {l : List Observation} {e : Event} (h : e ∈ repeatWarnings register seen l) :
    e.level = .warn := by
  induction l generalizing seen with
  | nil => cases h
  | cons o l ih =>
    rw [repeatWarnings] at h
    split_ifs at h
    · rcases List.mem_cons.1 h with rfl | h
      · rfl
      · exact ih h
    · exact ih h

/-- All that is logged about a group is a warning. -/
theorem level_of_mem_warnings {e : Event} (h : e ∈ g.warnings) : e.level = .warn := by
  rcases List.mem_append.1 h with hfields | hrepeated
  · obtain ⟨o, -, ho⟩ := List.mem_filterMap.1 hfields
    dsimp only [fieldSetWarning?] at ho
    split_ifs at ho
    cases ho
    rfl
  · exact level_of_mem_repeatWarnings hrepeated

/-- In a group without warnings, all observations have the fields of the first one. -/
theorem mem_names_iff_of_warnings_eq_nil {l : List Observation} {register : String}
    (h : (ofRegister l register).warnings = []) {o : Observation}
    (ho : o ∈ (ofRegister l register).observations) (field : String) :
    field ∈ o.fields.names ↔ field ∈ (ofRegister l register).fieldOrder := by
  obtain ⟨first, rest, hcons, hfields⟩ :=
    exists_cons_ofRegister ⟨o, mem_observations_ofRegister.1 ho⟩
  have hsame := (warnings_eq_nil_iff.1 h).1
  rw [hcons, List.drop_one, List.tail_cons] at hsame
  rw [hcons] at ho
  rcases List.mem_cons.1 ho with rfl | hrest
  · rw [hfields]
  · exact hsame o hrest field

end RegisterGroup

/-! ### Reports that lose nothing -/

/-- All of an observation can be read off the table: its environment has a column, each of its
fields has a row, and the cells there hold the values. -/
structure RegisterTable.Shows (t : RegisterTable) (o : Observation) : Prop where
  /-- Its environment has a column. -/
  column : o.environment ∈ t.environments
  /-- Each of its fields has a row. -/
  row : ∀ field ∈ o.fields.names, field ∈ t.rows.map Row.field
  /-- In each row of one of its fields, the cell of its environment holds the value. -/
  cell : ∀ field ∈ o.fields.names, ∀ i : ℕ, (t.rows.map Row.field)[i]? = some field →
    t.cell? i o.environment = o.fields.get? field

/-- No cell of the table is made up: there are as many as columns, and each is a value of the only
observation of the list for that register and the environment of the column. -/
structure RegisterTable.IsBackedBy (t : RegisterTable) (l : List Observation) : Prop where
  /-- A row has as many cells as there are columns. -/
  length_cells : ∀ row ∈ t.rows, row.cells.length = t.environments.length
  /-- A cell is the value of the one observation for its register and environment. -/
  cell : ∀ row ∈ t.rows, ∀ (j : ℕ) (cell : String), row.cells[j]? = some cell →
    ∃ environment o, t.environments[j]? = some environment ∧
      (l.filter fun o => o.register = t.register ∧ o.environment = environment) = [o] ∧
      o.fields.get? row.field = some cell

/-- The report neither drops nor hides nor fills in anything, as far as its registers go. -/
structure Report.IsLossless (r : Report) (l : List Observation) : Prop where
  /-- The table of its register shows an observation. -/
  shows : ∀ o ∈ l, o.register ∈ r.tables.map RegisterTable.register →
    ∃ t, r.table? o.register = some t ∧ t.Shows o
  /-- No cell is made up. -/
  backed : ∀ t ∈ r.tables, t.IsBackedBy l

namespace ReportOptions

variable {options : ReportOptions} {l : List Observation} {register : String} {number : ℕ}

/-- The table of a group without warnings shows all observations of its register. -/
theorem shows_groupTable (hpolicy : options.policy = .aligned)
    (hdiffering : options.differingOnly = false)
    (h : (RegisterGroup.ofRegister l register).warnings = []) {o : Observation} (ho : o ∈ l)
    (hregister : o.register = register) :
    (options.groupTable number (.ofRegister l register)).Shows o := by
  have hmem := RegisterGroup.mem_observations_ofRegister.2 ⟨ho, hregister⟩
  have hnames := RegisterGroup.mem_names_iff_of_warnings_eq_nil h hmem
  have hcolumn : o.environment ∈ (RegisterGroup.ofRegister l register).environments :=
    RegisterGroup.mem_environments.2 ⟨o, hmem, rfl⟩
  constructor
  · exact hcolumn
  · intro field hfield
    rw [map_field_rows_groupTable hdiffering]
    exact (hnames field).1 hfield
  · intro field hfield i hi
    rw [map_field_rows_groupTable hdiffering] at hi
    obtain ⟨value, hvalue⟩ :=
      Option.isSome_iff_exists.1 (Fields.contains_iff_mem_names.2 hfield)
    have honly := RegisterGroup.filter_eq_singleton (RegisterGroup.warnings_eq_nil_iff.1 h).2 hmem
    rw [hvalue]
    exact cell?_groupTable_eq_some hpolicy hdiffering hi
      ((RegisterGroup.value?_of_filter_eq honly).trans hvalue)

/-- The cells of the table of a group without warnings come from the observations. -/
theorem isBackedBy_groupTable (hpolicy : options.policy = .aligned)
    (hdiffering : options.differingOnly = false)
    (h : (RegisterGroup.ofRegister l register).warnings = []) :
    (options.groupTable number (.ofRegister l register)).IsBackedBy l := by
  constructor
  · exact length_cells_groupTable hpolicy hdiffering
  · intro row hrow j cell hcell
    rw [rows_groupTable hdiffering, hpolicy] at hrow
    obtain ⟨field, hfield, rfl⟩ := List.mem_map.1 hrow
    -- The cell is the answer for some column, and so for an observation of its environment.
    obtain ⟨environment, hcolumn, rfl⟩ := Option.map_eq_some_iff.1 (List.getElem?_map ▸ hcell)
    obtain ⟨o, ho, rfl⟩ := RegisterGroup.mem_environments.1 (List.mem_of_getElem? hcolumn)
    have honly := RegisterGroup.filter_eq_singleton (RegisterGroup.warnings_eq_nil_iff.1 h).2 ho
    have hnames := (RegisterGroup.mem_names_iff_of_warnings_eq_nil h ho field).2 hfield
    obtain ⟨value, hvalue⟩ := Option.isSome_iff_exists.1 (Fields.contains_iff_mem_names.2 hnames)
    refine ⟨o.environment, o, hcolumn, ?_, ?_⟩
    · rw [← RegisterGroup.filter_observations_ofRegister]
      exact honly
    · rw [RegisterGroup.value?_of_filter_eq honly, hvalue, Option.getD_some]

/-- If no warning is logged, no group that gets a table has one. -/
theorem warnings_eq_nil_of_silent {r : Report} (h : (options.build l).result = .ok r)
    (hsilent : ∀ e ∈ (options.build l).events, e.level ≠ .warn) :
    ∀ register ∈ options.selection l, (RegisterGroup.ofRegister l register).warnings = [] := by
  obtain ⟨hl, hknown⟩ := reportable_and_known_of_result_build h
  rw [build_of_known hl hknown] at hsilent
  intro register hregister
  rw [List.eq_nil_iff_forall_not_mem]
  intro e he
  have hlogged : e ∈ ((options.selection l).map (RegisterGroup.ofRegister l)).flatMap
      RegisterGroup.warnings :=
    List.mem_flatMap.2 ⟨_, List.mem_map_of_mem hregister, he⟩
  exact hsilent e (List.mem_cons_of_mem _ hlogged) (RegisterGroup.level_of_mem_warnings he)

/-- **A report without a warning loses nothing.** If building with aligned cells and all rows
succeeds and logs no warning, then each observation of a register in the report can be read off its
table, and no cell is a filler. -/
theorem build_lossless (options : ReportOptions) {r : Report} (hpolicy : options.policy = .aligned)
    (hdiffering : options.differingOnly = false) (h : (options.build l).result = .ok r)
    (hsilent : ∀ e ∈ (options.build l).events, e.level ≠ .warn) : r.IsLossless l := by
  have hwarnings := warnings_eq_nil_of_silent h hsilent
  obtain ⟨hl, hknown⟩ := reportable_and_known_of_result_build h
  rw [build_of_known hl hknown] at h
  obtain rfl := Except.ok.inj h
  -- Each table is that of a group without warnings.
  have htable : ∀ t ∈ options.tablesFrom 0 ((options.selection l).map (RegisterGroup.ofRegister l)),
      ∃ number, t = options.groupTable number (.ofRegister l t.register) ∧
        (RegisterGroup.ofRegister l t.register).warnings = [] := by
    intro t ht
    obtain ⟨number, g, hg, rfl⟩ := exists_of_mem_tablesFrom ht
    obtain ⟨register, hregister, rfl⟩ := List.mem_map.1 hg
    exact ⟨number, rfl, hwarnings register hregister⟩
  constructor
  · intro o ho hregister
    obtain ⟨t', ht', hsame⟩ := List.mem_map.1 hregister
    have hfound : ((options.tablesFrom 0 ((options.selection l).map
        (RegisterGroup.ofRegister l))).find? (·.register = o.register)).isSome :=
      List.find?_isSome.2 ⟨t', ht', decide_eq_true hsame⟩
    obtain ⟨t, ht⟩ := Option.isSome_iff_exists.1 hfound
    have hof : t.register = o.register := by simpa using List.find?_some ht
    obtain ⟨number, heq, hnone⟩ := htable t (List.mem_of_find?_eq_some ht)
    refine ⟨t, ht, ?_⟩
    rw [heq]
    exact shows_groupTable hpolicy hdiffering hnone ho hof.symm
  · intro t ht
    obtain ⟨number, heq, hnone⟩ := htable t ht
    rw [heq]
    exact isBackedBy_groupTable hpolicy hdiffering hnone

/-- The second observation of the register has its fields in another order, and the repeated
environment is one of a register that was not asked for. -/
theorem build_lossless_reordered :
    let l : List Observation :=
      [⟨"b", "R", ⟨[("x", "1"), ("y", "")]⟩⟩, ⟨"a", "Q", ⟨[]⟩⟩,
        ⟨"a", "R", ⟨[("y", "4"), ("x", "5")]⟩⟩, ⟨"a", "Q", ⟨[]⟩⟩]
    let options : ReportOptions := { registers := ["R"] }
    let r : Report := ⟨"Some system registers",
      [⟨0, "R", ["a", "b"], [⟨"x", ["5", "1"]⟩, ⟨"y", ["4", ""]⟩]⟩]⟩
    (options.build l).result = .ok r ∧ (∀ e ∈ (options.build l).events, e.level ≠ .warn) ∧
      r.IsLossless l :=
  ⟨by decide, by decide, build_lossless { registers := ["R"] } rfl rfl (by decide) (by decide)⟩

end ReportOptions

end RegisterTables
