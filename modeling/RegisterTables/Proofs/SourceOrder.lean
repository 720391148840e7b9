import RegisterTables.Proofs.Cells
import RegisterTables.Proofs.Pivot

/-!
# Cells in the order of the source

A row whose cells follow the source holds what the observations of its register say of its field,
one after the other, with no gap where an observation lacks it. Such a row matches its columns
exactly where the observations come from ascending environments and all have the field. If that is
so throughout the list, it makes no difference which policy fills the cells: the outcome of building
is the same, whatever else is asked for (`ReportOptions.build_sourceOrder`).

The columns of a table are the environments of its observations in ascending order. So where the
observations ascend already, the columns are their environments as they stand, and what a column's
environment answers is what its only observation says (`RegisterGroup.sourceOrderCells_eq`).
-/

namespace RegisterTables

/-! ### Tables that follow the source -/

/-- The table has a row for each field of its register's first observation, and each row holds the
values of its field in the observations of the register, in the order of the list. -/
structure RegisterTable.FollowsSource (t : RegisterTable) (l : List Observation) : Prop where
  /-- The rows are the fields of the first observation of the register, repeats included. -/
  fields : (l.find? (·.register = t.register)).map (·.fields.names) = some (t.rows.map Row.field)
  /-- The cells are the values of the field, and an observation that lacks it adds none. -/
  cells : ∀ row ∈ t.rows,
    row.cells = (l.filter (·.register = t.register)).filterMap (·.fields.get? row.field)

/-- The observations of the register stand in the order of its columns, and none of them leaves a
gap in a row. -/
structure IsListedByColumn (l : List Observation) (register : String) : Prop where
  /-- They come from strictly ascending environments. -/
  ascending : ((l.filter (·.register = register)).map Observation.environment).Pairwise
    fun a b => Text.bytes a < Text.bytes b
  /-- Each has all fields of the first one. -/
  complete : ∀ first, l.find? (·.register = register) = some first →
    ∀ o ∈ l, o.register = register → ∀ field ∈ first.fields.names, field ∈ o.fields.names

/-! ### The cells of a group -/

namespace RegisterGroup

variable {g : RegisterGroup} {field : String}

/-- The environments of observations that ascend are those of the observations as they stand. -/
theorem environments_eq_map (h : (g.observations.map Observation.environment).Pairwise (· < ·)) :
    g.environments = g.observations.map Observation.environment := by
  refine g.pairwise_environments.eq_of_mem_iff h ?_
  intro label
  rw [mem_environments, List.mem_map]

/-- Where the observations ascend and have the field, both policies fill its row alike. -/
theorem sourceOrderCells_eq (h : (g.observations.map Observation.environment).Pairwise (· < ·))
    (hfield : ∀ o ∈ g.observations, field ∈ o.fields.names) :
    g.sourceOrderCells g.environments field = g.alignedCells g.environments field := by
  have hnodup : (g.observations.map Observation.environment).Nodup := h.imp ne_of_lt
  -- Each observation is the only one of its environment, so it gives the answer.
  have hanswer : ∀ o ∈ g.observations,
      o.fields.get? field = some ((g.value? o.environment field).getD "") := by
    intro o ho
    obtain ⟨value, hvalue⟩ :=
      Option.isSome_iff_exists.1 (Fields.contains_iff_mem_names.2 (hfield o ho))
    rw [value?_of_filter_eq (filter_eq_singleton hnodup ho), hvalue, Option.getD_some]
  calc g.sourceOrderCells g.environments field
      = g.observations.filterMap (·.fields.get? field) := sourceOrderCells_environments
    _ = g.observations.filterMap fun o => some ((g.value? o.environment field).getD "") :=
        List.filterMap_congr hanswer
    _ = g.observations.map fun o => (g.value? o.environment field).getD "" := by
        rw [← List.filterMap_eq_map]
        rfl
    _ = g.alignedCells g.environments field := by
        rw [alignedCells, environments_eq_map h, List.map_map]
        rfl

/-- The group of a register that is listed by its columns. -/
theorem sourceOrderCells_ofRegister {l : List Observation} {register : String}
    (h : IsListedByColumn l register) (hfield : field ∈ (ofRegister l register).fieldOrder) :
    (ofRegister l register).sourceOrderCells (ofRegister l register).environments field
      = (ofRegister l register).alignedCells (ofRegister l register).environments field := by
  refine sourceOrderCells_eq (h.ascending.imp Text.bytes_lt_iff.1) ?_
  intro o ho
  obtain ⟨hmem, hregister⟩ := mem_observations_ofRegister.1 ho
  -- A register without a first observation has no fields.
  cases hfirst : l.find? (·.register = register) with
  | none => simp [ofRegister, hfirst] at hfield
  | some first =>
    refine h.complete first hfirst o hmem hregister field ?_
    simpa [ofRegister, hfirst] using hfield

end RegisterGroup

/-! ### The report -/

namespace ReportOptions

variable {options : ReportOptions} {l : List Observation}

/-- The table of a register follows the source if its cells do and all its rows are kept. -/
theorem followsSource_groupTable (hpolicy : options.policy = .sourceOrder)
    (hdiffering : options.differingOnly = false) {register : String}
    (h : ∃ o ∈ l, o.register = register) (number : ℕ) :
    (options.groupTable number (.ofRegister l register)).FollowsSource l where
  fields := by
    rw [map_field_rows_groupTable hdiffering]
    exact RegisterGroup.find?_eq_some_fieldOrder h
  cells row hrow := by
    rw [rows_groupTable hdiffering, hpolicy] at hrow
    obtain ⟨field, -, rfl⟩ := List.mem_map.1 hrow
    exact RegisterGroup.sourceOrderCells_environments

/-- Options with the same title and registers lead to the same outcome if they make the same tables
of the groups. -/
theorem build_congr {options' : ReportOptions} (htitle : options.title = options'.title)
    (hregisters : options.registers = options'.registers)
    (htable : ∀ number, ∀ g ∈ groupObservations l,
      options.table (.ofObservations l) number g = options'.table (.ofObservations l) number g) :
    options.build l = options'.build l := by
  have hincludes : options.includes = options'.includes := by
    funext register
    rw [includes, includes, hregisters]
  have htables : options.tables (.ofObservations l)
        ((groupObservations l).filter (options'.includes ·.register))
      = options'.tables (.ofObservations l)
        ((groupObservations l).filter (options'.includes ·.register)) := by
    refine List.map_congr_left ?_
    rintro ⟨g, number⟩ hg
    exact htable number g (List.mem_of_mem_filter (List.fst_mem_of_mem_zipIdx hg))
  simp only [build, unknown?, htitle, hregisters, hincludes, htables]

/-- **Cells in the order of the source.** If all registers asked for occur, the report is built, it
has a table for each register that is included, and the tables follow the source. Where each
register is listed by its columns, building comes to the same as with aligned cells. -/
theorem build_sourceOrder (options : ReportOptions) (l : List Observation) :
    (options.policy = .sourceOrder → options.differingOnly = false →
      (∀ o ∈ l, o.environment ≠ "" ∧ o.register ≠ "") →
      (∀ register ∈ options.registers, ∃ o ∈ l, o.register = register) →
      ∃ r, (options.build l).result = .ok r ∧
        (∀ register, register ∈ r.tables.map RegisterTable.register ↔
          (options.registers = [] ∨ register ∈ options.registers) ∧
            ∃ o ∈ l, o.register = register) ∧
        ∀ t ∈ r.tables, t.FollowsSource l) ∧
    ((∀ register, IsListedByColumn l register) →
      { options with policy := .sourceOrder }.build l
        = { options with policy := .aligned }.build l) := by
  constructor
  · intro hpolicy hdiffering hl hknown
    refine ⟨_, congrArg Logged.result (build_of_known hl hknown), ?_, ?_⟩
    · intro register
      have hregisters : ∀ groups, (options.tablesFrom 0 groups).map RegisterTable.register
          = groups.map RegisterGroup.register := map_tablesFrom (fun _ _ => rfl) 0
      show register ∈ (options.tablesFrom 0 _).map RegisterTable.register ↔ _
      rw [hregisters, List.map_map, ← mem_selection]
      exact iff_of_eq (congrArg (register ∈ ·) (List.map_id _))
    · intro t ht
      obtain ⟨number, g, hg, rfl⟩ := exists_of_mem_tablesFrom ht
      obtain ⟨register, hregister, rfl⟩ := List.mem_map.1 hg
      exact followsSource_groupTable hpolicy hdiffering (mem_selection.1 hregister).2 number
  · intro hlisted
    refine build_congr rfl rfl fun number g hg => ?_
    obtain ⟨-, hofRegister⟩ := exists_of_mem_groupObservations hg
    have hcolumns : (EnvironmentIndex.ofObservations l).restrict g = g.environments := by
      refine EnvironmentIndex.restrict_ofObservations fun o ho => ?_
      rw [hofRegister] at ho
      exact (RegisterGroup.mem_observations_ofRegister.1 ho).1
    have hrows : (g.fieldOrder.map fun field =>
          (⟨field, g.cells .sourceOrder g.environments field⟩ : Row))
        = g.fieldOrder.map fun field => ⟨field, g.cells .aligned g.environments field⟩ := by
      refine List.map_congr_left fun field hfield => ?_
      rw [hofRegister] at hfield ⊢
      exact congrArg (Row.mk field)
        (RegisterGroup.sourceOrderCells_ofRegister (hlisted g.register) hfield)
    simp only [table, hcolumns, hrows]

/-- An environment in which another register was observed as well comes between, and the later
observation has its fields in another order and one more. -/
theorem build_sourceOrder_ascending :
    let options : ReportOptions := { policy := .sourceOrder, registers := ["R"] }
    let l : List Observation :=
      [⟨"a", "R", ⟨[("x", "1"), ("y", "2")]⟩⟩, ⟨"b", "Q", ⟨[]⟩⟩,
        ⟨"b", "R", ⟨[("z", "3"), ("y", "4"), ("x", "5")]⟩⟩]
    (∀ o ∈ l, o.environment ≠ "" ∧ o.register ≠ "") ∧
      (∀ register ∈ options.registers, ∃ o ∈ l, o.register = register) ∧
      (∃ r, (options.build l).result = .ok r ∧ ∀ t ∈ r.tables, t.FollowsSource l) ∧
      (∀ register, IsListedByColumn l register) ∧
      { options with policy := .sourceOrder }.build l
        = { options with policy := .aligned }.build l := by
  intro options l
  have hl : ∀ o ∈ l, o.environment ≠ "" ∧ o.register ≠ "" := by decide +revert
  have hknown : ∀ register ∈ options.registers, ∃ o ∈ l, o.register = register := by
    decide +revert
  have hlisted : ∀ register, IsListedByColumn l register := by
    intro register
    by_cases hR : "R" = register
    · subst hR
      refine ⟨List.Pairwise.imp Text.bytes_lt_iff.2 (by decide +revert), ?_⟩
      intro first hfirst
      obtain rfl := Option.some.inj hfirst
      decide +revert
    · by_cases hQ : "Q" = register
      · subst hQ
        refine ⟨List.Pairwise.imp Text.bytes_lt_iff.2 (by decide +revert), ?_⟩
        intro first hfirst
        obtain rfl := Option.some.inj hfirst
        decide +revert
      · -- Of any other register there is no observation.
        have hnone : l.filter (·.register = register) = [] := by simp [l, hR, hQ]
        refine ⟨by rw [hnone]; exact .nil, fun first hfirst => ?_⟩
        rw [← List.head?_filter, hnone] at hfirst
        cases hfirst
  obtain ⟨hsource, hsame⟩ := build_sourceOrder options l
  obtain ⟨r, hok, -, htables⟩ := hsource rfl rfl hl hknown
  exact ⟨hl, hknown, ⟨r, hok, htables⟩, hlisted, hsame hlisted⟩

end ReportOptions

end RegisterTables
