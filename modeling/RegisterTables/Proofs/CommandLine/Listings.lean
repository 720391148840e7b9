import RegisterTables.CommandLine.Response
import RegisterTables.Proofs.Building
import RegisterTables.Proofs.ByteOrder

/-!
# The listings agree with the report

The program can list the registers and the environments of a catalogue without making a report of
it. `ReportOptions.isListedAs_of_result_build` says that the listings and the report of all
registers tell the same: the registers are those of the tables, each with the number of its columns,
and the environments are those that stand in a legend.

The three are computed in different ways. A register is counted by the environments of its group, a
table has the columns that its group leaves of the index, and the index is made of the flat list.
They meet in the groups: each table is that of a group by itself (`ReportOptions.tablesFrom`), and
every observation is in the group of its register.
-/

namespace RegisterTables

open CommandLine

/-- The report says what the listings of the observations say. -/
structure Report.IsListedAs (r : Report) (l : List Observation) : Prop where
  /-- The registers that are listed are those of the tables, in their order. -/
  registers : (groupObservations l).map RegisterGroup.register
    = r.tables.map RegisterTable.register
  /-- A register is listed with the number of columns of its table. -/
  columns : (groupObservations l).map (·.environments.length)
    = r.tables.map (·.environments.length)
  /-- The text of the listing of registers can be read off the tables. -/
  registerList_eq : registerList l
    = String.join (r.tables.map fun t => s!"{t.register} ({t.environments.length})\n")
  /-- The environments that are listed ascend, and none is there twice. -/
  labels_ascending : (EnvironmentIndex.ofObservations l).labels.toList.Pairwise
    fun a b => Text.bytes a < Text.bytes b
  /-- They are those of some legend. -/
  mem_labels : ∀ label, label ∈ (EnvironmentIndex.ofObservations l).labels.toList ↔
    ∃ t ∈ r.tables, label ∈ t.environments
  /-- A legend leaves out some of them, and keeps the others in their order. -/
  legend_sublist : ∀ t ∈ r.tables,
    t.environments.Sublist (EnvironmentIndex.ofObservations l).labels.toList
  /-- The text of the listing of environments numbers the labels of all legends. -/
  environmentList_eq : environmentList l
    = String.join ((Ascending.ofList (r.tables.flatMap RegisterTable.environments)).zipIdx.map
        fun (label, i) => s!"{i}. {label}\n")

namespace ReportOptions

variable {options : ReportOptions} {l : List Observation}

/-! ### Tables and groups -/

/-- Without a register filter, a report that is built has the tables of all groups. -/
theorem tables_of_result_build {r : Report} (hregisters : options.registers = [])
    (h : (options.build l).result = .ok r) :
    r.tables = options.tablesFrom 0 (groupObservations l) := by
  obtain ⟨hl, hknown⟩ := reportable_and_known_of_result_build h
  have hbuild := build_of_known hl hknown
  rw [selection_of_registers_nil hregisters, ← groupObservations_eq] at hbuild
  rw [hbuild, Except.ok.injEq] at h
  rw [← h]

/-! ### Environments -/

/-- Every environment of a list is one of some group, and of no group is any other. -/
theorem exists_group_iff {label : String} :
    (∃ g ∈ groupObservations l, label ∈ g.environments) ↔ ∃ o ∈ l, o.environment = label := by
  constructor
  · rintro ⟨g, hg, hlabel⟩
    obtain ⟨-, hofRegister⟩ := exists_of_mem_groupObservations hg
    rw [hofRegister, RegisterGroup.mem_environments_ofRegister] at hlabel
    obtain ⟨o, ho, -, henvironment⟩ := hlabel
    exact ⟨o, ho, henvironment⟩
  · rintro ⟨o, ho, henvironment⟩
    -- The observation is in the group of its own register.
    refine ⟨.ofRegister l o.register, ?_, ?_⟩
    · rw [groupObservations_eq]
      exact List.mem_map_of_mem (Ascending.mem_ofList.2 (List.mem_map_of_mem ho))
    · rw [RegisterGroup.mem_environments_ofRegister]
      exact ⟨o, ho, rfl, henvironment⟩

/-- The labels of all groups together are those of the index. -/
theorem labels_eq_ofList (l : List Observation) :
    (EnvironmentIndex.ofObservations l).labels.toList
      = Ascending.ofList ((groupObservations l).flatMap RegisterGroup.environments) := by
  refine Ascending.ofList_congr ?_
  intro label
  rw [List.mem_flatMap, exists_group_iff, List.mem_map]

/-- The environments of a group are in the order of the index. -/
theorem sublist_labels {g : RegisterGroup} (h : g ∈ groupObservations l) :
    g.environments.Sublist (EnvironmentIndex.ofObservations l).labels.toList := by
  obtain ⟨-, hofRegister⟩ := exists_of_mem_groupObservations h
  have hobservations : ∀ o ∈ g.observations, o ∈ l := by
    intro o ho
    rw [hofRegister] at ho
    exact (RegisterGroup.mem_observations_ofRegister.1 ho).1
  rw [← EnvironmentIndex.restrict_ofObservations hobservations]
  exact List.filter_sublist

/-! ### The listings -/

/-- **The listings agree with the report.** If a report of all registers can be built, whatever its
title, its policy and the rows that it leaves out, then its tables are of the registers that are
listed, with as many columns as are listed, and its legends hold the environments that are listed.
-/
theorem isListedAs_of_result_build {r : Report} (hregisters : options.registers = [])
    (h : (options.build l).result = .ok r) : r.IsListedAs l := by
  have htables := tables_of_result_build hregisters h
  have henvironments : r.tables.map RegisterTable.environments
      = (groupObservations l).map RegisterGroup.environments := by
    rw [htables]
    exact map_tablesFrom (fun _ _ => rfl) 0 _
  have hflat : r.tables.flatMap RegisterTable.environments
      = (groupObservations l).flatMap RegisterGroup.environments := by
    rw [List.flatMap_def, henvironments, ← List.flatMap_def]
  constructor
  · rw [htables]
    exact (map_tablesFrom (fun _ _ => rfl) 0 _).symm
  · rw [htables]
    exact (map_tablesFrom (fun _ _ => rfl) 0 _).symm
  · rw [registerList, htables]
    exact congrArg String.join (map_tablesFrom (fun _ _ => rfl) 0 _).symm
  · exact (EnvironmentIndex.ofObservations l).ascending.imp Text.bytes_lt_iff.2
  · intro label
    rw [labels_eq_ofList, ← hflat, Ascending.mem_ofList, List.mem_flatMap]
  · intro t ht
    rw [htables] at ht
    obtain ⟨number, g, hg, rfl⟩ := exists_of_mem_tablesFrom ht
    exact sublist_labels hg
  · rw [environmentList, labels_eq_ofList, hflat]

/-- Registers between each other, an environment that reports one of them twice, and another that
reports only one of them. -/
theorem isListedAs_of_result_build_interleaved :
    let options : ReportOptions := { policy := .sourceOrder, differingOnly := true }
    let l : List Observation :=
      [⟨"b", "S", ⟨[("x", "1")]⟩⟩, ⟨"c", "Q", ⟨[]⟩⟩, ⟨"b", "S", ⟨[("y", "2")]⟩⟩,
        ⟨"a", "S", ⟨[("x", "1")]⟩⟩]
    options.registers = [] ∧ ∃ r, (options.build l).result = .ok r ∧ r.IsListedAs l := by
  intro options l
  have hl : ∀ o ∈ l, o.IsReportable := by decide +revert
  have hknown : ∀ register ∈ options.registers, ∃ o ∈ l, o.register = register :=
    List.forall_mem_nil _
  have hresult := congrArg Logged.result (build_of_known hl hknown)
  exact ⟨rfl, _, hresult, isListedAs_of_result_build rfl hresult⟩

end ReportOptions

end RegisterTables
