import RegisterTables.Proofs.Cells

/-!
# One observation more

What appending one observation changes in the report of all registers. If its register was there
before, only the table of that register changes (`Report.GrowsBy.known`); otherwise a table of its
own comes in at its place and the tables behind it move on by one number (`Report.GrowsBy.first`).
Within a table, no row comes or goes, and no cell of another environment changes
(`RegisterTable.GrowsBy`).

Both the registers and the columns of a table are ascending lists into which a name is put. A name
goes between those below and those above it (`Ascending.exists_insert_eq`), and all else follows
from what the group of the register answers once the observation is added at its end
(`RegisterGroup.value?_push`).
-/

namespace RegisterTables

/-! ### How a report changes -/

/-- How the table of a register changes from `t` to `t'` when the observation `o` of it comes after
those of `l`. -/
structure RegisterTable.GrowsBy (policy : ColumnPolicy) (l : List Observation) (o : Observation)
    (t t' : RegisterTable) : Prop where
  /-- The table is that of the observation's register. -/
  register_eq : t.register = o.register
  /-- It stays so. -/
  register_eq' : t'.register = t.register
  /-- The number stays. -/
  index_eq : t'.index = t.index
  /-- The rows stay, in their order. -/
  fields_eq : t'.rows.map Row.field = t.rows.map Row.field
  /-- The labels of the columns ascend, so none is there twice. -/
  columns_ascending : t'.environments.Pairwise (· < ·)
  /-- The columns stay if the environment has one. -/
  columns_of_mem : o.environment ∈ t.environments → t'.environments = t.environments
  /-- Otherwise it gets one at its place. -/
  columns_of_notMem : o.environment ∉ t.environments → ∃ left right,
    (∀ label ∈ left, label < o.environment) ∧ (∀ label ∈ right, o.environment < label) ∧
      t.environments = left ++ right ∧ t'.environments = left ++ o.environment :: right
  /-- An aligned row has as many cells as there are columns. -/
  length_cells : policy = .aligned → ∀ row ∈ t'.rows, row.cells.length = t'.environments.length
  /-- The aligned cells of other environments stay. -/
  cell_of_ne : policy = .aligned → ∀ (i : ℕ) (environment : String),
    environment ≠ o.environment → t'.cell? i environment = t.cell? i environment
  /-- An aligned cell of the environment stays if an earlier observation has its field. -/
  cell_of_earlier : policy = .aligned → ∀ (i : ℕ) (field : String),
    (t.rows.map Row.field)[i]? = some field →
    (∃ p ∈ l, p.register = o.register ∧ p.environment = o.environment ∧ field ∈ p.fields.names) →
    t'.cell? i o.environment = t.cell? i o.environment
  /-- Otherwise it holds what the observation says of the field, and nothing if it lacks it. -/
  cell_of_not_earlier : policy = .aligned → ∀ (i : ℕ) (field : String),
    (t.rows.map Row.field)[i]? = some field →
    (¬∃ p ∈ l, p.register = o.register ∧ p.environment = o.environment ∧
      field ∈ p.fields.names) →
    t'.cell? i o.environment = some ((o.fields.get? field).getD "")
  /-- In the order of the source, the value comes last in each row whose field has one. -/
  rows_of_sourceOrder : policy = .sourceOrder →
    t'.rows = t.rows.map fun row => ⟨row.field, row.cells ++ (o.fields.get? row.field).toList⟩

/-- The table of a register with a single observation. -/
def RegisterTable.ofFirst (number : ℕ) (o : Observation) : RegisterTable where
  index := number
  register := o.register
  environments := [o.environment]
  rows := o.fields.names.map fun field => ⟨field, [(o.fields.get? field).getD ""]⟩

/-- The table with the next number. -/
def RegisterTable.next (t : RegisterTable) : RegisterTable :=
  { t with index := t.index + 1 }

/-- How a report on all registers changes when the observation `o` comes after those of `l`. -/
inductive Report.GrowsBy (policy : ColumnPolicy) (l : List Observation) (o : Observation) :
    Report → Report → Prop where
  /-- If the register was there, its table grows and all others stay. -/
  | known {title : String} {before after : List RegisterTable} {t t' : RegisterTable}
      (hmem : o.register ∈ l.map Observation.register)
      (hbefore : ∀ u ∈ before, u.register < o.register)
      (hafter : ∀ u ∈ after, o.register < u.register) (hgrows : t.GrowsBy policy l o t') :
      GrowsBy policy l o ⟨title, before ++ t :: after⟩ ⟨title, before ++ t' :: after⟩
  /-- Otherwise it gets a table at its place, and those behind it move on by one number. -/
  | first {title : String} {before after : List RegisterTable}
      (hnotMem : o.register ∉ l.map Observation.register)
      (hbefore : ∀ u ∈ before, u.register < o.register)
      (hafter : ∀ u ∈ after, o.register < u.register) :
      GrowsBy policy l o ⟨title, before ++ after⟩
        ⟨title, before ++ .ofFirst before.length o :: after.map RegisterTable.next⟩

/-! ### The group of the register -/

namespace RegisterGroup

variable {g : RegisterGroup} {o : Observation} {environment field : String}

/-- The environment of the added observation is put into those of the group. -/
theorem environments_push :
    (g.push o).environments = Ascending.insert o.environment g.environments := by
  rw [environments, environments, Ascending.insert_ofList, push, List.map_append,
    List.map_singleton]

theorem environments_push_of_mem (h : o.environment ∈ g.environments) :
    (g.push o).environments = g.environments := by
  obtain ⟨left, right, -, -, hinsert, hmem, -⟩ :=
    Ascending.exists_insert_eq o.environment g.pairwise_environments
  rw [environments_push, hinsert, ← hmem h]

theorem exists_environments_push_of_notMem (h : o.environment ∉ g.environments) :
    ∃ left right, (∀ label ∈ left, label < o.environment) ∧
      (∀ label ∈ right, o.environment < label) ∧ g.environments = left ++ right ∧
        (g.push o).environments = left ++ o.environment :: right := by
  obtain ⟨left, right, hleft, hright, hinsert, -, hnotMem⟩ :=
    Ascending.exists_insert_eq o.environment g.pairwise_environments
  exact ⟨left, right, hleft, hright, hnotMem h, environments_push.trans hinsert⟩

/-- Other environments answer as before. -/
theorem value?_push_of_ne (h : environment ≠ o.environment) :
    (g.push o).value? environment field = g.value? environment field := by
  have hnone : [o].filter (·.environment = environment) = [] := by
    simp [h.symm]
  rw [value?, value?, push, List.filter_append, hnone, List.append_nil]

/-- The environment of the added observation answers as before if it could, and otherwise what the
observation says. -/
theorem value?_push :
    (g.push o).value? o.environment field
      = (g.value? o.environment field).or (o.fields.get? field) := by
  have hself : [o].filter (·.environment = o.environment) = [o] := by
    simp
  rw [value?, value?, push, List.filter_append, hself, List.findSome?_append,
    List.findSome?_singleton]

theorem sourceOrderCells_push :
    (g.push o).sourceOrderCells (g.push o).environments field
      = g.sourceOrderCells g.environments field ++ (o.fields.get? field).toList := by
  rw [sourceOrderCells_environments, sourceOrderCells_environments, push, List.filterMap_append]
  cases hvalue : o.fields.get? field <;> simp [hvalue]

/-- An observation of the list answers for a register and environment. -/
theorem isSome_value?_ofRegister_iff {l : List Observation} {register : String} :
    ((ofRegister l register).value? environment field).isSome ↔
      ∃ p ∈ l, p.register = register ∧ p.environment = environment ∧ field ∈ p.fields.names := by
  rw [isSome_value?_iff]
  simp only [mem_observations_ofRegister, and_assoc]

end RegisterGroup

/-! ### The table of the register -/

namespace ReportOptions

variable {options : ReportOptions} {g : RegisterGroup} {o : Observation} {number : ℕ}

/-- The cells of other environments stay. -/
theorem cell?_groupTable_push_of_ne (hpolicy : options.policy = .aligned)
    (hdiffering : options.differingOnly = false) (i : ℕ) {environment : String}
    (hne : environment ≠ o.environment) :
    (options.groupTable number (g.push o)).cell? i environment
      = (options.groupTable number g).cell? i environment := by
  have hcolumn : environment ∈ (g.push o).environments ↔ environment ∈ g.environments := by
    rw [RegisterGroup.environments_push, Ascending.mem_insert, or_iff_right hne]
  rw [cell?_groupTable hpolicy hdiffering, cell?_groupTable hpolicy hdiffering]
  simp only [RegisterGroup.value?_push_of_ne hne, hcolumn]
  rfl

/-- The cell of the environment that is new holds what the observation says if there was no answer
before. -/
theorem cell?_groupTable_push_of_eq_none (hpolicy : options.policy = .aligned)
    (hdiffering : options.differingOnly = false) {i : ℕ} {field : String}
    (hfield : g.fieldOrder[i]? = some field) (hnone : g.value? o.environment field = none) :
    (options.groupTable number (g.push o)).cell? i o.environment
      = some ((o.fields.get? field).getD "") := by
  have hcolumn : o.environment ∈ (g.push o).environments := by
    rw [RegisterGroup.environments_push, Ascending.mem_insert]
    exact Or.inl rfl
  have hrow : (g.push o).fieldOrder[i]? = some field := hfield
  rw [cell?_groupTable hpolicy hdiffering, hrow, Option.bind_some, if_pos hcolumn,
    RegisterGroup.value?_push, hnone, Option.none_or]

/-- In the order of the source, the value of the observation comes last in each row. -/
theorem rows_groupTable_push (hpolicy : options.policy = .sourceOrder)
    (hdiffering : options.differingOnly = false) :
    (options.groupTable number (g.push o)).rows
      = (options.groupTable number g).rows.map fun row =>
          ⟨row.field, row.cells ++ (o.fields.get? row.field).toList⟩ := by
  have hcells : ∀ field, (g.push o).cells .sourceOrder (g.push o).environments field
      = g.cells .sourceOrder g.environments field ++ (o.fields.get? field).toList :=
    fun field => RegisterGroup.sourceOrderCells_push
  rw [rows_groupTable hdiffering, rows_groupTable hdiffering, List.map_map, hpolicy]
  simp only [hcells]
  rfl

/-- The table of a register grows by an observation of it. -/
theorem growsBy_groupTable (hdiffering : options.differingOnly = false) (l : List Observation)
    (o : Observation) (number : ℕ) :
    (options.groupTable number (.ofRegister l o.register)).GrowsBy options.policy l o
      (options.groupTable number ((RegisterGroup.ofRegister l o.register).push o)) where
  register_eq := rfl
  register_eq' := rfl
  index_eq := rfl
  fields_eq := by
    rw [map_field_rows_groupTable hdiffering, map_field_rows_groupTable hdiffering]
    rfl
  columns_ascending := RegisterGroup.pairwise_environments _
  columns_of_mem := RegisterGroup.environments_push_of_mem
  columns_of_notMem := RegisterGroup.exists_environments_push_of_notMem
  length_cells hpolicy := length_cells_groupTable hpolicy hdiffering
  cell_of_ne hpolicy i _ hne := cell?_groupTable_push_of_ne hpolicy hdiffering i hne
  cell_of_earlier hpolicy i field hfield hearlier := by
    rw [map_field_rows_groupTable hdiffering] at hfield
    obtain ⟨value, hvalue⟩ := Option.isSome_iff_exists.1
      (RegisterGroup.isSome_value?_ofRegister_iff.2 hearlier)
    have hsame : ((RegisterGroup.ofRegister l o.register).push o).value? o.environment field
        = some value := by
      rw [RegisterGroup.value?_push, hvalue, Option.some_or]
    rw [cell?_groupTable_eq_some hpolicy hdiffering hfield hvalue]
    exact cell?_groupTable_eq_some hpolicy hdiffering hfield hsame
  cell_of_not_earlier hpolicy i field hfield hnone := by
    rw [map_field_rows_groupTable hdiffering] at hfield
    rw [← RegisterGroup.isSome_value?_ofRegister_iff, Option.not_isSome_iff_eq_none] at hnone
    exact cell?_groupTable_push_of_eq_none hpolicy hdiffering hfield hnone
  rows_of_sourceOrder hpolicy := rows_groupTable_push hpolicy hdiffering

/-- The table of the first observation of a register. -/
theorem groupTable_ofFirst (hdiffering : options.differingOnly = false) (number : ℕ)
    (o : Observation) : options.groupTable number (.ofFirst o) = .ofFirst number o := by
  have henvironments : (RegisterGroup.ofFirst o).environments = [o.environment] := rfl
  -- Either way a row has the value of its field, and there is one since the field is its own.
  have hcells : ∀ field ∈ o.fields.names,
      (RegisterGroup.ofFirst o).cells options.policy [o.environment] field
        = [(o.fields.get? field).getD ""] := by
    intro field hfield
    obtain ⟨value, hvalue⟩ :=
      Option.isSome_iff_exists.1 (Fields.contains_iff_mem_names.2 hfield)
    cases options.policy with
    | aligned => simp [RegisterGroup.cells, RegisterGroup.alignedCells, RegisterGroup.value?,
        RegisterGroup.ofFirst, hvalue]
    | sourceOrder => simp [RegisterGroup.cells, RegisterGroup.sourceOrderCells,
        RegisterGroup.ofFirst, hvalue]
  have hrows : (options.groupTable number (.ofFirst o)).rows
      = o.fields.names.map fun field => ⟨field, [(o.fields.get? field).getD ""]⟩ := by
    rw [rows_groupTable hdiffering, henvironments]
    apply List.map_congr_left
    intro field hfield
    rw [hcells field hfield]
  exact RegisterTable.ext rfl rfl henvironments hrows

/-! ### The report -/

/-- Tables numbered from one further on have the next numbers. -/
theorem tablesFrom_succ (i : ℕ) (groups : List RegisterGroup) :
    options.tablesFrom (i + 1) groups = (options.tablesFrom i groups).map RegisterTable.next := by
  rw [tablesFrom, tablesFrom, List.zipIdx_succ, List.map_map, List.map_map]
  rfl

variable {l : List Observation} {left right : List String}

/-- The tables on the appended list: only the one of the observation's register is another, and
those behind it follow its number. -/
theorem tablesFrom_map_ofRegister_concat (hleft : ∀ register ∈ left, register < o.register)
    (hright : ∀ register ∈ right, o.register < register) :
    options.tablesFrom 0 ((left ++ o.register :: right).map (RegisterGroup.ofRegister (l ++ [o])))
      = options.tablesFrom 0 (left.map (RegisterGroup.ofRegister l)) ++
        options.groupTable left.length (.ofRegister (l ++ [o]) o.register) ::
          options.tablesFrom (left.length + 1) (right.map (RegisterGroup.ofRegister l)) := by
  have hnotLeft : o.register ∉ left := fun h => lt_irrefl _ (hleft _ h)
  have hnotRight : o.register ∉ right := fun h => lt_irrefl _ (hright _ h)
  rw [List.map_append, List.map_cons, RegisterGroup.map_ofRegister_concat hnotLeft,
    RegisterGroup.map_ofRegister_concat hnotRight, tablesFrom_append, tablesFrom_cons,
    List.length_map, Nat.zero_add]

/-- The tables grow by an observation of a register that has one. -/
theorem growsBy_of_mem (hdiffering : options.differingOnly = false)
    (hmem : o.register ∈ l.map Observation.register)
    (hleft : ∀ register ∈ left, register < o.register)
    (hright : ∀ register ∈ right, o.register < register) (title : String) :
    Report.GrowsBy options.policy l o
      ⟨title, options.tablesFrom 0 ((left ++ o.register :: right).map
        (RegisterGroup.ofRegister l))⟩
      ⟨title, options.tablesFrom 0 ((left ++ o.register :: right).map
        (RegisterGroup.ofRegister (l ++ [o])))⟩ := by
  -- Both lists of tables come apart at the register, with the same tables before and behind.
  rw [tablesFrom_map_ofRegister_concat hleft hright, RegisterGroup.ofRegister_concat_of_mem hmem,
    List.map_append, List.map_cons, tablesFrom_append, tablesFrom_cons, List.length_map,
    Nat.zero_add]
  apply Report.GrowsBy.known hmem
  · exact fun u hu => hleft _ (register_mem_of_mem_tablesFrom hu)
  · exact fun u hu => hright _ (register_mem_of_mem_tablesFrom hu)
  · exact growsBy_groupTable hdiffering l o left.length

/-- The tables grow by an observation of a register that is new. -/
theorem growsBy_of_notMem (hdiffering : options.differingOnly = false)
    (hnotMem : o.register ∉ l.map Observation.register)
    (hleft : ∀ register ∈ left, register < o.register)
    (hright : ∀ register ∈ right, o.register < register) (title : String) :
    Report.GrowsBy options.policy l o
      ⟨title, options.tablesFrom 0 ((left ++ right).map (RegisterGroup.ofRegister l))⟩
      ⟨title, options.tablesFrom 0 ((left ++ o.register :: right).map
        (RegisterGroup.ofRegister (l ++ [o])))⟩ := by
  have hlength : left.length
      = (options.tablesFrom 0 (left.map (RegisterGroup.ofRegister l))).length := by
    rw [length_tablesFrom, List.length_map]
  rw [tablesFrom_map_ofRegister_concat hleft hright,
    RegisterGroup.ofRegister_concat_of_notMem hnotMem, groupTable_ofFirst hdiffering,
    tablesFrom_succ, List.map_append, tablesFrom_append, List.length_map, Nat.zero_add]
  -- The table that comes in is numbered by how many there are before it.
  nth_rewrite 2 [hlength]
  apply Report.GrowsBy.first hnotMem
  · exact fun u hu => hleft _ (register_mem_of_mem_tablesFrom hu)
  · exact fun u hu => hright _ (register_mem_of_mem_tablesFrom hu)

/-- **One observation more changes only its own table.** On observations that can be reported, with
no register and no row left out, both reports are built, and the second one is the first one with
the table of the observation's register grown or put in. -/
theorem build_concat (options : ReportOptions) {l : List Observation} {o : Observation}
    (hregisters : options.registers = []) (hdiffering : options.differingOnly = false)
    (hl : ∀ p ∈ l ++ [o], p.environment ≠ "" ∧ p.register ≠ "") :
    ∃ r r', (options.build l).result = .ok r ∧ (options.build (l ++ [o])).result = .ok r' ∧
      r.GrowsBy options.policy l o r' := by
  have hpart : ∀ p ∈ l, p.IsReportable := fun p hp => hl p (List.mem_append_left _ hp)
  have hknown (m : List Observation) : ∀ register ∈ options.registers,
      ∃ p ∈ m, p.register = register := by
    simp [hregisters]
  refine ⟨_, _, congrArg Logged.result (build_of_known hpart (hknown l)),
    congrArg Logged.result (build_of_known hl (hknown _)), ?_⟩
  obtain ⟨left, right, hleft, hright, hinsert, hmem, hnotMem⟩ :=
    Ascending.exists_insert_eq o.register
      (Ascending.pairwise_ofList (l.map Observation.register))
  -- The registers are put in at the same place as the table.
  rw [selection_of_registers_nil hregisters, selection_of_registers_nil hregisters,
    List.map_append, List.map_singleton, ← Ascending.insert_ofList, hinsert]
  rw [Ascending.mem_ofList] at hmem hnotMem
  by_cases h : o.register ∈ l.map Observation.register
  · rw [hmem h]
    exact growsBy_of_mem hdiffering h hleft hright _
  · rw [hnotMem h]
    exact growsBy_of_notMem hdiffering h hleft hright _

/-- A register with a gap in one of its rows, and an observation whose environment belongs between
the two that reported it. -/
theorem build_concat_between :
    let l : List Observation :=
      [⟨"c", "R", ⟨[("x", "1"), ("y", "2")]⟩⟩, ⟨"a", "R", ⟨[("x", "3")]⟩⟩, ⟨"a", "S", ⟨[]⟩⟩]
    let o : Observation := ⟨"b", "R", ⟨[("y", "4"), ("z", "5")]⟩⟩
    (∀ p ∈ l ++ [o], p.environment ≠ "" ∧ p.register ≠ "") ∧
      ∃ r r', (({} : ReportOptions).build l).result = .ok r ∧
        (({} : ReportOptions).build (l ++ [o])).result = .ok r' ∧ r.GrowsBy .aligned l o r' :=
  ⟨by decide, build_concat {} rfl rfl (by decide)⟩

end ReportOptions

end RegisterTables
