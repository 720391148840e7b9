import RegisterTables.Proofs.Building

/-!
# Reports of some registers

Asking for some registers gives the report that the observations of these registers have by
themselves, and it is the report of all registers with the other tables taken out and the rest
numbered anew (`build_onlyRegisters`). So neither the order of the registers asked for nor anything
that was observed of other registers can be seen in it.

The filter acts on groups that were made of the whole list, with an index of all its environments.
It can be moved to the list because the group of a register is the same in the whole list and in the
part of it that is asked for (`ofRegister_filter`), and because a table does not depend on the
index (`ReportOptions.tables_ofObservations`).
-/

namespace RegisterTables

/-- The same options, for these registers alone; for all if there are none. -/
def ReportOptions.onlyRegisters (options : ReportOptions) (registers : List String) :
    ReportOptions :=
  { options with registers := registers }

/-! ### Taking tables out of a report -/

/-- The tables with the numbers from `i` on. -/
def RegisterTable.renumberFrom (i : ℕ) (tables : List RegisterTable) : List RegisterTable :=
  (tables.zipIdx i).map fun (t, number) => { t with index := number }

/-- The report without the tables of other registers, those that are left numbered from zero. -/
def Report.restrictTo (r : Report) (registers : List String) : Report where
  title := r.title
  tables := RegisterTable.renumberFrom 0 (r.tables.filter (·.register ∈ registers))

namespace ReportOptions

variable (options : ReportOptions) {registers : List String} {l : List Observation}

/-- Taking tables out comes to the same as leaving their groups out, whatever the numbers were. -/
theorem renumberFrom_filter_tablesFrom (p : String → Bool) (i j : ℕ) (groups : List RegisterGroup) :
    RegisterTable.renumberFrom j ((options.tablesFrom i groups).filter (p ·.register))
      = options.tablesFrom j (groups.filter (p ·.register)) := by
  induction groups generalizing i j with
  | nil => rfl
  | cons g groups ih =>
    have hregister : (options.groupTable i g).register = g.register := rfl
    rw [tablesFrom_cons, List.filter_cons, List.filter_cons, hregister]
    split_ifs with hp
    · -- The table stays, with the next number.
      have hrest := ih (i + 1) (j + 1)
      rw [RegisterTable.renumberFrom, List.zipIdx_cons, List.map_cons]
      exact congrArg (options.groupTable j g :: ·) hrest
    · exact ih (i + 1) j

/-! ### Moving the filter to the list -/

/-- The observations of a register are all kept if those of some registers are kept and it is one
of them. -/
theorem ofRegister_filter {register : String} (h : register ∈ registers) :
    RegisterGroup.ofRegister (l.filter (·.register ∈ registers)) register
      = RegisterGroup.ofRegister l register := by
  apply RegisterGroup.ofRegister_congr
  rw [List.filter_filter]
  apply List.filter_congr
  intro o _
  by_cases ho : o.register = register
  · simp [ho, h]
  · simp [ho]

/-- The registers of a report of some registers are those of the report of all that are asked
for. -/
theorem selection_onlyRegisters (h : registers ≠ []) :
    (options.onlyRegisters registers).selection l
      = ((options.onlyRegisters []).selection l).filter (· ∈ registers) := by
  have hall : (options.onlyRegisters []).selection l
      = Ascending.ofList (l.map Observation.register) := selection_of_registers_nil rfl
  have hincludes : (options.onlyRegisters registers).includes = (decide <| · ∈ registers) := by
    funext register
    rw [includes, onlyRegisters, List.isEmpty_eq_false_iff.2 h, Bool.false_or]
  rw [hall, selection, hincludes]

/-- They are also the registers of that part of the list. -/
theorem selection_filter :
    (options.onlyRegisters []).selection (l.filter (·.register ∈ registers))
      = ((options.onlyRegisters []).selection l).filter (· ∈ registers) := by
  have hall (m : List Observation) : (options.onlyRegisters []).selection m
      = Ascending.ofList (m.map Observation.register) := selection_of_registers_nil rfl
  have hmap : (l.filter (·.register ∈ registers)).map Observation.register
      = (l.map Observation.register).filter (· ∈ registers) := by
    rw [List.filter_map]
    rfl
  rw [hall, hall, hmap, Ascending.ofList_filter]

/-- A report of some registers is the report of the observations of these registers. -/
theorem result_build_onlyRegisters (hl : ∀ o ∈ l, o.IsReportable) (h : registers ≠ [])
    (hknown : ∀ register ∈ registers, ∃ o ∈ l, o.register = register) :
    ((options.onlyRegisters registers).build l).result
      = ((options.onlyRegisters []).build (l.filter (·.register ∈ registers))).result := by
  have hpart : ∀ o ∈ l.filter (·.register ∈ registers), o.IsReportable := fun o ho =>
    hl o (List.mem_of_mem_filter ho)
  have hgroups : ((options.onlyRegisters registers).selection l).map (RegisterGroup.ofRegister l)
      = ((options.onlyRegisters []).selection (l.filter (·.register ∈ registers))).map
          (RegisterGroup.ofRegister (l.filter (·.register ∈ registers))) := by
    rw [selection_onlyRegisters options h, selection_filter]
    -- The registers are the same, and so is the group of each of them.
    apply List.map_congr_left
    intro register hregister
    exact (ofRegister_filter (of_decide_eq_true (List.mem_filter.1 hregister).2)).symm
  rw [build_of_known hl hknown, build_of_known hpart (List.forall_mem_nil _), hgroups]
  rfl

/-- A report of some registers is what is left of the report of all registers. -/
theorem result_build_onlyRegisters_eq_restrictTo (hl : ∀ o ∈ l, o.IsReportable)
    (h : registers ≠ []) (hknown : ∀ register ∈ registers, ∃ o ∈ l, o.register = register) :
    ∃ whole, ((options.onlyRegisters []).build l).result = .ok whole ∧
      ((options.onlyRegisters registers).build l).result = .ok (whole.restrictTo registers) := by
  have hwhole : ∀ register ∈ (options.onlyRegisters []).registers, ∃ o ∈ l, o.register = register :=
    List.forall_mem_nil _
  refine ⟨_, congrArg Logged.result (build_of_known hl hwhole), ?_⟩
  -- The groups that are left are those of the registers asked for.
  have hgroups : (((options.onlyRegisters []).selection l).map
        (RegisterGroup.ofRegister l)).filter (·.register ∈ registers)
      = ((options.onlyRegisters registers).selection l).map (RegisterGroup.ofRegister l) := by
    rw [selection_onlyRegisters options h, List.filter_map]
    rfl
  have htables := renumberFrom_filter_tablesFrom options (· ∈ registers) 0 0
    (((options.onlyRegisters []).selection l).map (RegisterGroup.ofRegister l))
  rw [hgroups] at htables
  rw [build_of_known hl hknown, Report.restrictTo]
  exact congrArg (fun tables => Except.ok (Report.mk options.title tables)) htables.symm

/-- **Asking for some registers is the same as leaving out the observations of the others.** It
succeeds if all of them occur, and gives the report of their observations, which is the report of
all registers without the tables of the others. It does not matter in which order or how often they
are asked for, or what was observed of other registers. -/
theorem build_onlyRegisters (hl : ∀ o ∈ l, o.environment ≠ "" ∧ o.register ≠ "")
    (hregisters : registers ≠ [])
    (hknown : ∀ register ∈ registers, ∃ o ∈ l, o.register = register) :
    ∃ r, ((options.onlyRegisters registers).build l).result = .ok r ∧
      ((options.onlyRegisters []).build (l.filter (·.register ∈ registers))).result = .ok r ∧
      (∃ whole, ((options.onlyRegisters []).build l).result = .ok whole ∧
        r = whole.restrictTo registers) ∧
      ∀ (registers' : List String) (l' : List Observation),
        (∀ o ∈ l', o.environment ≠ "" ∧ o.register ≠ "") →
        (∀ register, register ∈ registers' ↔ register ∈ registers) →
        l'.filter (·.register ∈ registers) = l.filter (·.register ∈ registers) →
        ((options.onlyRegisters registers').build l').result = .ok r := by
  obtain ⟨whole, hwhole, hok⟩ :=
    result_build_onlyRegisters_eq_restrictTo options hl hregisters hknown
  have hpart := result_build_onlyRegisters options hl hregisters hknown
  refine ⟨whole.restrictTo registers, hok, hpart ▸ hok, ⟨whole, hwhole, rfl⟩, ?_⟩
  intro registers' l' hl' hsame hfilter
  have hne : registers' ≠ [] := by
    obtain ⟨register, hmem⟩ := List.exists_mem_of_ne_nil _ hregisters
    exact List.ne_nil_of_mem ((hsame register).2 hmem)
  -- An observation of a register that is asked for stands in both lists.
  have hknown' : ∀ register ∈ registers', ∃ o ∈ l', o.register = register := by
    intro register hmem
    obtain ⟨o, ho, rfl⟩ := hknown register ((hsame register).1 hmem)
    have hfiltered : o ∈ l.filter (·.register ∈ registers) :=
      List.mem_filter.2 ⟨ho, decide_eq_true ((hsame _).1 hmem)⟩
    rw [← hfilter] at hfiltered
    exact ⟨o, List.mem_of_mem_filter hfiltered, rfl⟩
  have hpart' := result_build_onlyRegisters options hl' hne hknown'
  simp only [hsame, hfilter] at hpart'
  rw [hpart', ← hpart, hok]

/-- Registers asked for in another order, one of them twice, and a list without the observations of
a register that was not asked for, which has an environment of its own. Its table has the first
number in the whole report. -/
theorem build_onlyRegisters_repeated :
    let options : ReportOptions := { policy := .sourceOrder, differingOnly := true }
    let l : List Observation :=
      [⟨"b", "S", ⟨[("x", "1"), ("y", "2")]⟩⟩, ⟨"c", "Q", ⟨[("x", "3")]⟩⟩, ⟨"a", "T", ⟨[]⟩⟩,
        ⟨"a", "S", ⟨[("x", "1"), ("y", "4")]⟩⟩]
    let r : Report := ⟨"Some system registers",
      [⟨0, "S", ["a", "b"], [⟨"y", ["2", "4"]⟩]⟩, ⟨1, "T", ["a"], []⟩]⟩
    let whole : Report := ⟨"Some system registers",
      [⟨0, "Q", ["c"], []⟩, ⟨1, "S", ["a", "b"], [⟨"y", ["2", "4"]⟩]⟩, ⟨2, "T", ["a"], []⟩]⟩
    (∀ o ∈ l, o.environment ≠ "" ∧ o.register ≠ "") ∧ ["T", "S", "T"] ≠ [] ∧
      (∀ register ∈ ["T", "S", "T"], ∃ o ∈ l, o.register = register) ∧
      ((options.onlyRegisters ["T", "S", "T"]).build l).result = .ok r ∧
      ((options.onlyRegisters []).build l).result = .ok whole ∧
      r = whole.restrictTo ["T", "S", "T"] ∧
      ((options.onlyRegisters ["S", "T"]).build
        (l.filter (·.register ∈ ["S", "T"]))).result = .ok r := by
  intro options l r whole
  have hl : ∀ o ∈ l, o.environment ≠ "" ∧ o.register ≠ "" := by decide +revert
  have hknown : ∀ register ∈ ["T", "S", "T"], ∃ o ∈ l, o.register = register := by decide +revert
  have hok : ((options.onlyRegisters ["T", "S", "T"]).build l).result = .ok r := by decide
  have hwhole : ((options.onlyRegisters []).build l).result = .ok whole := by decide
  obtain ⟨r', hr', -, ⟨whole', hwhole', hrestrict⟩, hsame⟩ :=
    build_onlyRegisters options hl (by decide) hknown
  obtain rfl : r' = r := Except.ok.inj (hr'.symm.trans hok)
  obtain rfl : whole' = whole := Except.ok.inj (hwhole'.symm.trans hwhole)
  refine ⟨hl, by decide, hknown, hok, hwhole, hrestrict, hsame _ _ ?_ ?_ ?_⟩
  · exact fun o ho => hl o (List.mem_of_mem_filter ho)
  · simp [or_comm]
  · rfl

end ReportOptions

end RegisterTables
