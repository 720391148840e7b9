import RegisterTables.Proofs.Building

/-!
# Which orders a report depends on

The order of a list of observations matters within a register only. Lists in which each register has
the same observations in the same order lead to the same outcome, whatever the policy. With aligned
cells even less of the order matters: the observations of different environments may change places,
as long as the first one of each register has the same field names (`agreeOn_of_filter_eq`).

The outcome on a list is settled by the registers that occur and by the tables of their groups
(`agreeOn_of_groupTable_eq`), and either kind of order is enough to tell these. With aligned cells
that is so because a table asks its group for nothing but the fields of the first observation, the
environments, and the answer of each environment (`groupTable_congr`).
-/

namespace RegisterTables

namespace ReportOptions

/-- Both lists lead to the same report, or to the same unknown register. -/
def AgreeOn (options : ReportOptions) (xs ys : List Observation) : Prop :=
  (∃ r, (options.build xs).result = .ok r ∧ (options.build ys).result = .ok r) ∨
    ∃ register, (options.build xs).result = .error (.unknownRegister register) ∧
      (options.build ys).result = .error (.unknownRegister register)

variable {options : ReportOptions} {xs ys : List Observation}

/-! ### What settles the outcome -/

theorem mem_map_register_iff {l : List Observation} {register : String} :
    register ∈ l.map Observation.register ↔ (l.find? (·.register = register)).isSome := by
  rw [List.find?_isSome, List.mem_map]
  simp only [decide_eq_true_iff]

/-- Groups with equal tables make equal lists of tables. -/
theorem tablesFrom_congr {registers : List String}
    (h : ∀ number, ∀ register ∈ registers,
      options.groupTable number (.ofRegister xs register)
        = options.groupTable number (.ofRegister ys register)) (i : ℕ) :
    options.tablesFrom i (registers.map (RegisterGroup.ofRegister xs))
      = options.tablesFrom i (registers.map (RegisterGroup.ofRegister ys)) := by
  rw [tablesFrom, tablesFrom, List.zipIdx_map, List.zipIdx_map, List.map_map, List.map_map]
  apply List.map_congr_left
  rintro ⟨register, number⟩ hmem
  exact h number register (List.fst_mem_of_mem_zipIdx hmem)

/-- Lists with the same registers, the groups of which have the same tables, lead to the same
outcome. -/
theorem agreeOn_of_groupTable_eq (hxs : ∀ o ∈ xs, o.IsReportable) (hys : ∀ o ∈ ys, o.IsReportable)
    (hregisters : ∀ register,
      register ∈ xs.map Observation.register ↔ register ∈ ys.map Observation.register)
    (htables : ∀ number register, options.groupTable number (.ofRegister xs register)
      = options.groupTable number (.ofRegister ys register)) :
    options.AgreeOn xs ys := by
  have hselection : options.selection xs = options.selection ys := by
    rw [selection, selection, Ascending.ofList_congr hregisters]
  -- What is missing in one list is missing in the other, so the first missing register is the same.
  have hunknown : options.registers.find? (· ∉ xs.map Observation.register)
      = options.registers.find? (· ∉ ys.map Observation.register) := by
    refine List.find?_congr fun register _ => ?_
    exact decide_eq_decide.2 (not_congr (hregisters register))
  cases hfind : options.registers.find? (· ∉ xs.map Observation.register) with
  | some register =>
    right
    exact ⟨register, result_build_of_unknown hxs hfind,
      result_build_of_unknown hys (hunknown ▸ hfind)⟩
  | none =>
    left
    have hknown : ∀ register ∈ options.registers, ∃ o ∈ xs, o.register = register := by
      simpa using hfind
    have hknown' : ∀ register ∈ options.registers, ∃ o ∈ ys, o.register = register := by
      simpa using hunknown.symm.trans hfind
    refine ⟨_, congrArg Logged.result (build_of_known hxs hknown), ?_⟩
    rw [build_of_known hys hknown', hselection, tablesFrom_congr fun n register _ =>
      htables n register]

/-! ### What a table with aligned cells asks of its group -/

/-- With aligned cells, groups of a register have the same table if they agree on their fields, on
their environments and on the answer of each environment. -/
theorem groupTable_congr (hpolicy : options.policy = .aligned) {g h : RegisterGroup}
    (hregister : g.register = h.register) (hfields : g.fieldOrder = h.fieldOrder)
    (henvironments : g.environments = h.environments)
    (hvalue : ∀ environment field, g.value? environment field = h.value? environment field)
    (number : ℕ) : options.groupTable number g = options.groupTable number h := by
  have hcells : g.alignedCells = h.alignedCells := by
    funext columns field
    simp only [RegisterGroup.alignedCells, hvalue]
  simp only [groupTable, RegisterGroup.cells, hpolicy, hregister, hfields, henvironments, hcells]

end ReportOptions

namespace RegisterGroup

variable {g h : RegisterGroup}

/-- An environment reported the register if some observation of the group is of it. -/
theorem mem_environments_iff_filter_ne_nil {environment : String} :
    environment ∈ g.environments ↔ g.observations.filter (·.environment = environment) ≠ [] := by
  rw [mem_environments, ne_eq, List.filter_eq_nil_iff]
  simp

/-- The environments of a group are settled by what each of them observed. -/
theorem environments_congr
    (hfilter : ∀ environment, g.observations.filter (·.environment = environment)
      = h.observations.filter (·.environment = environment)) : g.environments = h.environments := by
  refine g.pairwise_environments.eq_of_mem_iff h.pairwise_environments ?_
  intro environment
  rw [mem_environments_iff_filter_ne_nil, mem_environments_iff_filter_ne_nil, hfilter]

end RegisterGroup

/-! ### The orders that matter -/

namespace ReportOptions

/-- **Which orders a report depends on.** With aligned cells, it is enough that the first
observation of each register has the same field names in both lists, and that the observations of
each register and environment stand in the same order. With any policy, it is enough that the
observations of each register do; so registers may be interleaved in any way. -/
theorem agreeOn_of_filter_eq (options : ReportOptions) {xs ys : List Observation}
    (hxs : ∀ o ∈ xs, o.environment ≠ "" ∧ o.register ≠ "")
    (hys : ∀ o ∈ ys, o.environment ≠ "" ∧ o.register ≠ "") :
    (options.policy = .aligned →
      (∀ register, (xs.find? (·.register = register)).map (·.fields.names)
        = (ys.find? (·.register = register)).map (·.fields.names)) →
      (∀ register environment,
        (xs.filter fun o => o.register = register ∧ o.environment = environment)
          = ys.filter fun o => o.register = register ∧ o.environment = environment) →
      options.AgreeOn xs ys) ∧
    ((∀ register, xs.filter (·.register = register) = ys.filter (·.register = register)) →
      options.AgreeOn xs ys) := by
  constructor
  · intro hpolicy hfirst hfilter
    have hregisters : ∀ register,
        register ∈ xs.map Observation.register ↔ register ∈ ys.map Observation.register := by
      intro register
      have hsome := congrArg Option.isSome (hfirst register)
      rw [Option.isSome_map, Option.isSome_map] at hsome
      rw [mem_map_register_iff, mem_map_register_iff, hsome]
    refine agreeOn_of_groupTable_eq hxs hys hregisters fun number register => ?_
    -- What the group of a register keeps of each environment is the same for both lists.
    have hobservations : ∀ environment,
        (RegisterGroup.ofRegister xs register).observations.filter (·.environment = environment)
          = (RegisterGroup.ofRegister ys register).observations.filter
            (·.environment = environment) := by
      intro environment
      rw [RegisterGroup.filter_observations_ofRegister, hfilter,
        RegisterGroup.filter_observations_ofRegister]
    have hfields : (RegisterGroup.ofRegister xs register).fieldOrder
        = (RegisterGroup.ofRegister ys register).fieldOrder :=
      congrArg (·.getD []) (hfirst register)
    have hvalue : ∀ environment field,
        (RegisterGroup.ofRegister xs register).value? environment field
          = (RegisterGroup.ofRegister ys register).value? environment field := by
      intro environment field
      rw [RegisterGroup.value?, hobservations, RegisterGroup.value?]
    have henvironments := RegisterGroup.environments_congr hobservations
    exact groupTable_congr hpolicy (by rfl) hfields henvironments hvalue number
  · intro hfilter
    have hregisters : ∀ register,
        register ∈ xs.map Observation.register ↔ register ∈ ys.map Observation.register := by
      intro register
      rw [mem_map_register_iff, mem_map_register_iff, ← List.head?_filter, ← List.head?_filter,
        hfilter]
    refine agreeOn_of_groupTable_eq hxs hys hregisters fun number register => ?_
    rw [RegisterGroup.ofRegister_congr (hfilter register)]

/-- The observations of a register that come from different environments are turned round for
aligned cells, and only an observation of another register is moved for cells in the order of the
source, where a register is asked for that neither list has. -/
theorem agreeOn_of_filter_eq_moved :
    let b : Observation := ⟨"b", "R", ⟨[("x", "1"), ("y", "2")]⟩⟩
    let a : Observation := ⟨"a", "R", ⟨[("x", "3"), ("y", "4")]⟩⟩
    let q : Observation := ⟨"a", "Q", ⟨[]⟩⟩
    let asked : ReportOptions := { policy := .sourceOrder, registers := ["P"] }
    let r : Report := ⟨"Some system registers",
      [⟨0, "Q", ["a"], []⟩, ⟨1, "R", ["a", "b"], [⟨"x", ["3", "1"]⟩, ⟨"y", ["4", "2"]⟩]⟩]⟩
    (∀ register, ([b, q, a].find? (·.register = register)).map (·.fields.names)
        = ([q, a, b].find? (·.register = register)).map (·.fields.names)) ∧
      (∀ register environment,
        ([b, q, a].filter fun o => o.register = register ∧ o.environment = environment)
          = [q, a, b].filter fun o => o.register = register ∧ o.environment = environment) ∧
      (∀ register,
        [b, q, a].filter (·.register = register) = [q, b, a].filter (·.register = register)) ∧
      ({} : ReportOptions).AgreeOn [b, q, a] [q, a, b] ∧
      (({} : ReportOptions).build [b, q, a]).result = .ok r ∧
      (({} : ReportOptions).build [q, a, b]).result = .ok r ∧
      asked.AgreeOn [b, q, a] [q, b, a] ∧
      (asked.build [b, q, a]).result = .error (.unknownRegister "P") ∧
      (asked.build [q, b, a]).result = .error (.unknownRegister "P") := by
  intro b a q asked r
  have hreportable : ∀ o ∈ [b, q, a], o.environment ≠ "" ∧ o.register ≠ "" := by decide +revert
  have hturned : ∀ o ∈ [q, a, b], o.environment ≠ "" ∧ o.register ≠ "" := by decide +revert
  have hmoved : ∀ o ∈ [q, b, a], o.environment ≠ "" ∧ o.register ≠ "" := by decide +revert
  have hfirst : ∀ register, ([b, q, a].find? (·.register = register)).map (·.fields.names)
      = ([q, a, b].find? (·.register = register)).map (·.fields.names) := by
    intro register
    by_cases hR : "R" = register
    · subst hR; rfl
    · simp [List.find?_cons, b, a, q, hR]
  have hpairs : ∀ register environment,
      ([b, q, a].filter fun o => o.register = register ∧ o.environment = environment)
        = [q, a, b].filter fun o => o.register = register ∧ o.environment = environment := by
    intro register environment
    by_cases hR : "R" = register
    · subst hR
      by_cases ha : "a" = environment
      · subst ha; rfl
      · simp [List.filter_cons, b, a, q, ha]
    · simp [List.filter_cons, b, a, q, hR]
  have hregisters : ∀ register,
      [b, q, a].filter (·.register = register) = [q, b, a].filter (·.register = register) := by
    intro register
    by_cases hR : "R" = register
    · subst hR; rfl
    · simp [List.filter_cons, b, a, q, hR]
  refine ⟨hfirst, hpairs, hregisters, ?_, by decide, by decide, ?_, by decide, by decide⟩
  · exact (agreeOn_of_filter_eq _ hreportable hturned).1 rfl hfirst hpairs
  · exact (agreeOn_of_filter_eq _ hreportable hmoved).2 hregisters

end ReportOptions

end RegisterTables
