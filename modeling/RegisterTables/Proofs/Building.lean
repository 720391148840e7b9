import RegisterTables.Proofs.Grouping
import Mathlib.Data.List.Find

/-!
# What building a report comes to

An observation can be reported if neither its label nor its name is empty. On a list of such
observations the outcome of `ReportOptions.build` depends on the groups alone, and without a
register filter there is a table for each of them (`ReportOptions.result_build_of_registers_nil`).

With a filter, building succeeds exactly if all registers asked for occur. Then each of them has the
table that its group has by itself, and what is logged are the warnings of these groups
(`ReportOptions.build_of_known`). Neither the index nor any other group is left in that statement,
so two lists can be compared by the groups of their registers.
-/

namespace RegisterTables

/-! ### Observations that can be reported -/

/-- The observation has both a label and a name. -/
def Observation.IsReportable (o : Observation) : Prop :=
  o.environment ≠ "" ∧ o.register ≠ ""

instance (o : Observation) : Decidable o.IsReportable :=
  inferInstanceAs (Decidable (_ ∧ _))

theorem Observation.flaw?_eq_none_iff {o : Observation} : o.flaw? = none ↔ o.IsReportable := by
  unfold flaw? IsReportable
  split_ifs with henv hreg
  · simp [henv]
  · simp [hreg]
  · simp [henv, hreg]

theorem malformed?.go_eq_none_iff {l : List Observation} {i : ℕ} :
    malformed?.go i l = none ↔ ∀ o ∈ l, o.IsReportable := by
  induction l generalizing i with
  | nil => simp [malformed?.go]
  | cons o l ih =>
    rw [malformed?.go, List.forall_mem_cons, ← Observation.flaw?_eq_none_iff]
    cases ho : o.flaw? with
    | some flaw => simp
    | none => simpa using ih

/-- No observation is rejected exactly if each can be reported. -/
theorem malformed?_eq_none_iff {l : List Observation} :
    malformed? l = none ↔ ∀ o ∈ l, o.IsReportable :=
  malformed?.go_eq_none_iff

/-! ### The report of all registers -/

namespace ReportOptions

variable {options : ReportOptions} {l : List Observation}

theorem unknown?_of_registers_nil (h : options.registers = []) (groups : List RegisterGroup) :
    options.unknown? groups = none := by
  rw [unknown?, h, List.find?_nil]

theorem includes_of_registers_nil (h : options.registers = []) (register : String) :
    options.includes register = true := by
  rw [includes, h, List.isEmpty_nil, Bool.true_or]

/-- Without a register filter, each group gets a table. -/
theorem result_build_of_registers_nil (h : options.registers = [])
    (hl : ∀ o ∈ l, o.IsReportable) :
    (options.build l).result = .ok ⟨options.title,
      options.tables (EnvironmentIndex.ofObservations l) (groupObservations l)⟩ := by
  have hall : (groupObservations l).filter (options.includes ·.register) = groupObservations l :=
    List.filter_eq_self.2 fun g _ => includes_of_registers_nil h g.register
  rw [build, malformed?_eq_none_iff.2 hl]
  simp only [unknown?_of_registers_nil h, hall]

/-- The tables stand in the order of the groups, each with its position as its number. -/
theorem getElem?_tables (index : EnvironmentIndex) (groups : List RegisterGroup) (i : ℕ) :
    (options.tables index groups)[i]? = groups[i]?.map (options.table index i) := by
  rw [tables, List.getElem?_map, List.getElem?_zipIdx, Option.map_map, Nat.zero_add]
  rfl

@[simp] theorem length_tables (index : EnvironmentIndex) (groups : List RegisterGroup) :
    (options.tables index groups).length = groups.length := by
  rw [tables, List.length_map, List.length_zipIdx]

/-- The tables bear the registers of the groups. -/
theorem map_register_tables (index : EnvironmentIndex) (groups : List RegisterGroup) :
    (options.tables index groups).map RegisterTable.register
      = groups.map RegisterGroup.register := by
  have hcomp : RegisterTable.register ∘ (fun p : RegisterGroup × ℕ => options.table index p.2 p.1)
      = RegisterGroup.register ∘ Prod.fst := rfl
  rw [tables, List.map_map, hcomp, ← List.map_map, List.zipIdx_map_fst]

/-- The tables are numbered from zero. -/
theorem map_index_tables (index : EnvironmentIndex) (groups : List RegisterGroup) :
    (options.tables index groups).map RegisterTable.index = List.range groups.length := by
  have hcomp : RegisterTable.index ∘ (fun p : RegisterGroup × ℕ => options.table index p.2 p.1)
      = Prod.snd := rfl
  rw [tables, List.map_map, hcomp, List.zipIdx_map_snd, List.range_eq_range']

/-! ### The report of some registers -/

/-- The registers that get a table, in ascending order. -/
def selection (options : ReportOptions) (l : List Observation) : List String :=
  (Ascending.ofList (l.map Observation.register)).filter options.includes

/-- Without a register filter, each register that occurs gets a table. -/
theorem selection_of_registers_nil (h : options.registers = []) :
    options.selection l = Ascending.ofList (l.map Observation.register) :=
  List.filter_eq_self.2 fun register _ => includes_of_registers_nil h register

/-- A register gets a table if it is asked for, or all are, and it occurs. -/
theorem mem_selection {register : String} :
    register ∈ options.selection l ↔
      (options.registers = [] ∨ register ∈ options.registers) ∧ ∃ o ∈ l, o.register = register := by
  rw [selection, List.mem_filter, Ascending.mem_ofList, List.mem_map, includes, Bool.or_eq_true,
    List.isEmpty_iff, decide_eq_true_iff, and_comm]

/-- The table of a group by itself, without an index: its columns are the environments of the
group. -/
def groupTable (options : ReportOptions) (number : ℕ) (g : RegisterGroup) : RegisterTable :=
  let rows := g.fieldOrder.map fun field => ⟨field, g.cells options.policy g.environments field⟩
  { index := number
    register := g.register
    environments := g.environments
    rows := if options.differingOnly then rows.filter (!·.isUniform) else rows }

/-- The tables of groups by themselves, numbered from `i` on. -/
def tablesFrom (options : ReportOptions) (i : ℕ) (groups : List RegisterGroup) :
    List RegisterTable :=
  (groups.zipIdx i).map fun (g, number) => options.groupTable number g

theorem tablesFrom_append (i : ℕ) (groups groups' : List RegisterGroup) :
    options.tablesFrom i (groups ++ groups')
      = options.tablesFrom i groups ++ options.tablesFrom (i + groups.length) groups' := by
  rw [tablesFrom, List.zipIdx_append, List.map_append]
  rfl

theorem tablesFrom_cons (i : ℕ) (g : RegisterGroup) (groups : List RegisterGroup) :
    options.tablesFrom i (g :: groups)
      = options.groupTable i g :: options.tablesFrom (i + 1) groups := rfl

@[simp] theorem length_tablesFrom (i : ℕ) (groups : List RegisterGroup) :
    (options.tablesFrom i groups).length = groups.length := by
  rw [tablesFrom, List.length_map, List.length_zipIdx]

/-- What does not depend on the number of a table can be read off its group. -/
theorem map_tablesFrom {α : Type} {f : RegisterTable → α} {f' : RegisterGroup → α}
    (h : ∀ number g, f (options.groupTable number g) = f' g) (i : ℕ)
    (groups : List RegisterGroup) : (options.tablesFrom i groups).map f = groups.map f' := by
  induction groups generalizing i with
  | nil => rfl
  | cons g groups ih => rw [tablesFrom_cons, List.map_cons, h, ih, List.map_cons]

theorem exists_of_mem_tablesFrom {t : RegisterTable} {i : ℕ} {groups : List RegisterGroup}
    (h : t ∈ options.tablesFrom i groups) :
    ∃ number, ∃ g ∈ groups, t = options.groupTable number g := by
  obtain ⟨⟨g, number⟩, hmem, rfl⟩ := List.mem_map.1 h
  exact ⟨number, g, List.fst_mem_of_mem_zipIdx hmem, rfl⟩

/-- What relates each table to its group relates the list of tables to that of the groups. -/
theorem forall₂_tablesFrom {R : RegisterTable → RegisterGroup → Prop} {i : ℕ}
    {groups : List RegisterGroup} (h : ∀ number, ∀ g ∈ groups, R (options.groupTable number g) g) :
    List.Forall₂ R (options.tablesFrom i groups) groups := by
  induction groups generalizing i with
  | nil => exact .nil
  | cons g groups ih =>
    rw [tablesFrom_cons]
    exact .cons (h i g List.mem_cons_self)
      (ih fun number g' hg' => h number g' (List.mem_cons_of_mem g hg'))

/-- The tables made of the groups of some registers bear these registers. -/
theorem register_mem_of_mem_tablesFrom {t : RegisterTable} {i : ℕ} {registers : List String}
    (h : t ∈ options.tablesFrom i (registers.map (RegisterGroup.ofRegister l))) :
    t.register ∈ registers := by
  obtain ⟨number, g, hg, rfl⟩ := exists_of_mem_tablesFrom h
  obtain ⟨register, hregister, rfl⟩ := List.mem_map.1 hg
  exact hregister

/-- In a report, each group of the list has the table that it has by itself. -/
theorem tables_ofObservations {groups : List RegisterGroup}
    (h : ∀ g ∈ groups, ∀ o ∈ g.observations, o ∈ l) :
    options.tables (.ofObservations l) groups = options.tablesFrom 0 groups := by
  refine List.map_congr_left ?_
  rintro ⟨g, number⟩ hg
  have hrestrict : (EnvironmentIndex.ofObservations l).restrict g = g.environments :=
    EnvironmentIndex.restrict_ofObservations (h g (List.fst_mem_of_mem_zipIdx hg))
  simp only [table, groupTable, hrestrict]

/-- The groups that get a table are those of the selected registers. -/
theorem filter_groupObservations (l : List Observation) :
    (groupObservations l).filter (options.includes ·.register)
      = (options.selection l).map (RegisterGroup.ofRegister l) := by
  rw [groupObservations_eq, List.filter_map]
  rfl

/-- A register is unknown if no observation is of it. -/
theorem unknown?_groupObservations (l : List Observation) :
    options.unknown? (groupObservations l)
      = options.registers.find? (· ∉ l.map Observation.register) := by
  refine List.find?_congr ?_
  intro register _
  -- The groups bear the registers of the list, so no group is of `register` if no observation is.
  rw [Bool.eq_iff_iff, decide_eq_true_iff, ← Ascending.mem_ofList,
    ← map_register_groupObservations, List.all_eq_true]
  constructor
  · intro hall hmem
    obtain ⟨g, hg, rfl⟩ := List.mem_map.1 hmem
    exact of_decide_eq_true (hall g hg) rfl
  · intro hnot g hg
    exact decide_eq_true fun heq => hnot (heq ▸ List.mem_map_of_mem hg)

/-- **The outcome of building, by the flat list**, if all registers asked for occur. -/
theorem build_of_known (hl : ∀ o ∈ l, o.IsReportable)
    (h : ∀ register ∈ options.registers, ∃ o ∈ l, o.register = register) :
    options.build l =
      ⟨.ok ⟨options.title,
          options.tablesFrom 0 ((options.selection l).map (RegisterGroup.ofRegister l))⟩,
        .groupedObservations l.length (groupObservations l).length
            (EnvironmentIndex.ofObservations l).size ::
          ((options.selection l).map (RegisterGroup.ofRegister l)).flatMap
            RegisterGroup.warnings⟩ := by
  have hknown : options.unknown? (groupObservations l) = none := by
    rw [unknown?_groupObservations, List.find?_eq_none]
    intro register hregister
    simpa using h register hregister
  -- The groups hold observations of the list only, so each has the table that it has by itself.
  have htables : options.tables (.ofObservations l)
      ((options.selection l).map (RegisterGroup.ofRegister l))
      = options.tablesFrom 0 ((options.selection l).map (RegisterGroup.ofRegister l)) := by
    refine tables_ofObservations ?_
    intro g hg o ho
    obtain ⟨register, -, rfl⟩ := List.mem_map.1 hg
    exact (RegisterGroup.mem_observations_ofRegister.1 ho).1
  rw [build, malformed?_eq_none_iff.2 hl]
  simp only [hknown, filter_groupObservations, htables]

/-- The outcome of building if some register asked for does not occur. -/
theorem build_of_unknown (hl : ∀ o ∈ l, o.IsReportable) {register : String}
    (h : options.registers.find? (· ∉ l.map Observation.register) = some register) :
    options.build l =
      ⟨.error (.unknownRegister register),
        [.groupedObservations l.length (groupObservations l).length
          (EnvironmentIndex.ofObservations l).size]⟩ := by
  rw [build, malformed?_eq_none_iff.2 hl]
  simp only [unknown?_groupObservations, h]

theorem result_build_of_unknown (hl : ∀ o ∈ l, o.IsReportable) {register : String}
    (h : options.registers.find? (· ∉ l.map Observation.register) = some register) :
    (options.build l).result = .error (.unknownRegister register) :=
  congrArg Logged.result (build_of_unknown hl h)

/-- Building succeeds only if each observation can be reported and all registers asked for
occur. -/
theorem reportable_and_known_of_result_build {r : Report} (h : (options.build l).result = .ok r) :
    (∀ o ∈ l, o.IsReportable) ∧
      ∀ register ∈ options.registers, ∃ o ∈ l, o.register = register := by
  have hl : ∀ o ∈ l, o.IsReportable := by
    rw [← malformed?_eq_none_iff]
    cases hmalformed : malformed? l with
    | none => rfl
    | some e => simp [build, hmalformed] at h
  refine ⟨hl, ?_⟩
  -- A register that does not occur would have been reported instead.
  cases hfind : options.registers.find? (· ∉ l.map Observation.register) with
  | none => simpa using hfind
  | some register =>
    rw [result_build_of_unknown hl hfind] at h
    cases h

end ReportOptions

end RegisterTables
