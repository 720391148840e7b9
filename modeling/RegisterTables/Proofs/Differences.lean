import RegisterTables.Proofs.Cells
import RegisterTables.Proofs.Pivot

/-!
# Which differences are shown

A report may leave out the rows on which nothing differs. A row is left out if all its cells are the
same, wherever they stand (`Row.isUniform_iff`), so whether a difference is shown depends on whether
it is one of cells. `ReportOptions.build_showsDifferences` says when that is so.

With aligned cells each environment of the legend has a cell, empty if it reported nothing, so no
difference between two of them is lost. In the order of the source an environment that reported
nothing has no cell. A difference between two values is shown all the same, but where all values
that were reported are the same, the row is left out, even if some environment reported none
(`ReportOptions.not_shown_of_unreported`).

Leaving out rows changes nothing else: tables, numbers and columns stay, and so do the rows with two
different cells, in their order (`ReportOptions.build_differingOnly`).
-/

namespace RegisterTables

/-! ### What is reported of a field -/

/-- What an environment says of a field of a register: the value that it reported first, and the
empty text if it reported none. -/
def reportedText (l : List Observation) (register environment field : String) : String :=
  (reportedValue? l register environment field).getD ""

/-- All values that were reported of a field of a register, by whichever environment. -/
def reportedValues (l : List Observation) (register field : String) : List String :=
  (l.filter (·.register = register)).filterMap (·.fields.get? field)

/-- Two environments of the legend disagree on the field. -/
def RegisterTable.IsDisputed (t : RegisterTable) (l : List Observation) (field : String) : Prop :=
  ∃ a ∈ t.environments, ∃ b ∈ t.environments,
    reportedText l t.register a field ≠ reportedText l t.register b field

/-- The table has a row for the field. -/
def RegisterTable.HasRow (t : RegisterTable) (field : String) : Prop :=
  field ∈ t.rows.map Row.field

/-- The table has a row for the field if its cells can tell a difference, and in the order of the
source only then. -/
structure RegisterTable.ShowsDifferences (options : ReportOptions) (t : RegisterTable)
    (l : List Observation) (field : String) : Prop where
  /-- Aligned cells tell any two environments of the legend apart that disagree. -/
  row_of_isDisputed : options.policy = .aligned → t.IsDisputed l field → t.HasRow field
  /-- In the order of the source they do if both environments reported the field. -/
  row_of_reported : options.policy = .sourceOrder →
    ∀ a ∈ t.environments, ∀ b ∈ t.environments, ∀ v w,
      reportedValue? l t.register a field = some v → reportedValue? l t.register b field = some w →
      v ≠ w → t.HasRow field
  /-- In the order of the source they do also if any two values are different. -/
  row_of_values : options.policy = .sourceOrder → ∀ v ∈ reportedValues l t.register field,
    ∀ w ∈ reportedValues l t.register field, v ≠ w → t.HasRow field
  /-- In the order of the source no row is left if all values are the same, whether or not each
  environment reported one. -/
  not_row_of_values : options.policy = .sourceOrder → options.differingOnly = true →
    (∀ v ∈ reportedValues l t.register field, ∀ w ∈ reportedValues l t.register field, v = w) →
    ¬t.HasRow field

/-- The value that an environment reported first is one of those that were reported. -/
theorem mem_reportedValues {l : List Observation} {register environment field value : String}
    (h : reportedValue? l register environment field = some value) :
    value ∈ reportedValues l register field := by
  obtain ⟨o, ho, hvalue⟩ := Option.bind_eq_some_iff.1 h
  have hfound := List.find?_some ho
  rw [decide_eq_true_iff] at hfound
  have hregister : o.register = register := hfound.1
  refine List.mem_filterMap.2 ⟨o, ?_, hvalue⟩
  exact List.mem_filter.2 ⟨List.mem_of_find?_eq_some ho, decide_eq_true hregister⟩

/-! ### Rows that are left out -/

theorem Row.isUniform.go_iff {cells : List String} :
    Row.isUniform.go cells = true ↔ ∀ c ∈ cells, ∀ d ∈ cells, c = d := by
  induction cells with
  | nil => simp [go]
  | cons c cells ih =>
    cases cells with
    | nil => simp [go]
    | cons d cells =>
      rw [go, Bool.and_eq_true, beq_iff_eq, ih]
      constructor
      · -- the first cell equals the second one, and that one all others
        rintro ⟨rfl, hrest⟩ e he f hf
        have hfirst : ∀ x ∈ c :: c :: cells, x = c := by
          intro x hx
          rcases List.mem_cons.1 hx with rfl | hx
          · rfl
          · exact hrest x hx c List.mem_cons_self
        rw [hfirst e he, hfirst f hf]
      · intro hall
        refine ⟨hall c (by simp) d (by simp), fun e he f hf => ?_⟩
        exact hall e (List.mem_cons_of_mem c he) f (List.mem_cons_of_mem c hf)

/-- **A row is uniform** if any two of its cells are the same, neighbours or not. -/
theorem Row.isUniform_iff {row : Row} :
    row.isUniform = true ↔ ∀ c ∈ row.cells, ∀ d ∈ row.cells, c = d :=
  Row.isUniform.go_iff

namespace ReportOptions

variable {options : ReportOptions} {l : List Observation}

/-- A row with two different cells is kept. -/
theorem hasRow_groupTable {g : RegisterGroup} {field c d : String} (hfield : field ∈ g.fieldOrder)
    (hc : c ∈ g.cells options.policy g.environments field)
    (hd : d ∈ g.cells options.policy g.environments field) (hne : c ≠ d) (number : ℕ) :
    (options.groupTable number g).HasRow field := by
  have hrow : (⟨field, g.cells options.policy g.environments field⟩ : Row).isUniform = false := by
    rw [Bool.eq_false_iff, ne_eq, Row.isUniform_iff]
    intro hall
    exact hne (hall c hc d hd)
  refine List.mem_map.2 ⟨⟨field, g.cells options.policy g.environments field⟩, ?_, rfl⟩
  have hmem := List.mem_map_of_mem
    (f := fun field => (⟨field, g.cells options.policy g.environments field⟩ : Row)) hfield
  unfold groupTable
  dsimp only
  split_ifs
  · exact List.mem_filter.2 ⟨hmem, by rw [hrow]; rfl⟩
  · exact hmem

/-- If rows may be left out, no row without two different cells is kept. -/
theorem not_hasRow_groupTable {g : RegisterGroup} {field : String}
    (hdiffering : options.differingOnly = true)
    (hcells : ∀ c ∈ g.cells options.policy g.environments field,
      ∀ d ∈ g.cells options.policy g.environments field, c = d) (number : ℕ) :
    ¬(options.groupTable number g).HasRow field := by
  unfold RegisterTable.HasRow groupTable
  dsimp only
  rw [if_pos hdiffering]
  intro hrow
  obtain ⟨row, hkept, rfl⟩ := List.mem_map.1 hrow
  obtain ⟨hrow, hdiffers⟩ := List.mem_filter.1 hkept
  obtain ⟨field, -, rfl⟩ := List.mem_map.1 hrow
  have huniform : (⟨field, g.cells options.policy g.environments field⟩ : Row).isUniform = true :=
    Row.isUniform_iff.2 hcells
  rw [huniform] at hdiffers
  cases hdiffers

/-! ### The tables of a report -/

/-- With aligned cells, what an environment of the legend says is one of the cells. -/
theorem reportedText_mem_alignedCells {register environment : String} (field : String)
    (h : environment ∈ (RegisterGroup.ofRegister l register).environments) :
    reportedText l register environment field
      ∈ (RegisterGroup.ofRegister l register).alignedCells
          (RegisterGroup.ofRegister l register).environments field := by
  rw [reportedText, ← RegisterGroup.value?_ofRegister]
  exact List.mem_map_of_mem h

/-- In the order of the source, the cells are the values that were reported. -/
theorem cells_eq_reportedValues (hpolicy : options.policy = .sourceOrder)
    (register field : String) :
    (RegisterGroup.ofRegister l register).cells options.policy
        (RegisterGroup.ofRegister l register).environments field
      = reportedValues l register field := by
  rw [hpolicy]
  exact RegisterGroup.sourceOrderCells_environments

/-- The table of a register shows the differences of each field of the first observation. -/
theorem showsDifferences_groupTable {register field : String}
    (hfield : field ∈ (RegisterGroup.ofRegister l register).fieldOrder) (number : ℕ) :
    (options.groupTable number (.ofRegister l register)).ShowsDifferences options l field := by
  have hvalues (hpolicy : options.policy = .sourceOrder) :
      ∀ v ∈ reportedValues l register field, ∀ w ∈ reportedValues l register field, v ≠ w →
        (options.groupTable number (.ofRegister l register)).HasRow field := by
    intro v hv w hw hne
    rw [← cells_eq_reportedValues hpolicy] at hv hw
    exact hasRow_groupTable hfield hv hw hne number
  constructor
  · rintro hpolicy ⟨a, ha, b, hb, hne⟩
    have hcells (environment : String)
        (h : environment ∈ (RegisterGroup.ofRegister l register).environments) :
        reportedText l register environment field
          ∈ (RegisterGroup.ofRegister l register).cells options.policy
              (RegisterGroup.ofRegister l register).environments field := by
      rw [hpolicy]
      exact reportedText_mem_alignedCells field h
    exact hasRow_groupTable hfield (hcells a ha) (hcells b hb) hne number
  · intro hpolicy a _ b _ v w hv hw hne
    exact hvalues hpolicy v (mem_reportedValues hv) w (mem_reportedValues hw) hne
  · exact hvalues
  · intro hpolicy hdiffering hsame
    apply not_hasRow_groupTable hdiffering
    rw [cells_eq_reportedValues hpolicy]
    exact hsame

/-- **Leaving out rows does not hide differences of values.** The report is built if all registers
asked for occur. If two environments in the legend of a table disagree on a field of the register's
first observation, then with aligned cells the table has a row for it. In the order of the source it
has one if both of them reported the field, and in any case if two values that were reported of it
are different. If these are all the same, it has none there, also where an environment reported no
value at all. -/
theorem build_showsDifferences (options : ReportOptions)
    (hl : ∀ o ∈ l, o.environment ≠ "" ∧ o.register ≠ "")
    (hknown : ∀ register ∈ options.registers, ∃ o ∈ l, o.register = register) :
    ∃ r, (options.build l).result = .ok r ∧ ∀ t ∈ r.tables, ∀ first,
      l.find? (·.register = t.register) = some first → ∀ field ∈ first.fields.names,
        t.ShowsDifferences options l field := by
  refine ⟨_, congrArg Logged.result (build_of_known hl hknown), ?_⟩
  intro t ht first hfirst field hfield
  obtain ⟨number, g, hg, rfl⟩ := exists_of_mem_tablesFrom ht
  obtain ⟨register, -, rfl⟩ := List.mem_map.1 hg
  refine showsDifferences_groupTable ?_ number
  have hfind : l.find? (·.register = register) = some first := hfirst
  simpa [RegisterGroup.ofRegister, hfind] using hfield

/-- Environments that differ in the value of one field, and agree on another one that the
environment between them did not report either. -/
theorem build_showsDifferences_apart :
    let options : ReportOptions := { policy := .sourceOrder, differingOnly := true }
    let l : List Observation :=
      [⟨"a", "R", ⟨[("x", "1"), ("y", "0")]⟩⟩, ⟨"b", "R", ⟨[]⟩⟩,
        ⟨"c", "R", ⟨[("x", "2"), ("y", "0")]⟩⟩]
    let t : RegisterTable := ⟨0, "R", ["a", "b", "c"], [⟨"x", ["1", "2"]⟩]⟩
    (∀ o ∈ l, o.environment ≠ "" ∧ o.register ≠ "") ∧
      (∀ register ∈ options.registers, ∃ o ∈ l, o.register = register) ∧
      (options.build l).result = .ok ⟨"Some system registers", [t]⟩ ∧
      t.ShowsDifferences options l "x" ∧ t.HasRow "x" ∧
      t.ShowsDifferences options l "y" ∧ ¬t.HasRow "y" := by
  intro options l t
  have hl : ∀ o ∈ l, o.environment ≠ "" ∧ o.register ≠ "" := by decide
  have hknown : ∀ register ∈ options.registers, ∃ o ∈ l, o.register = register := by decide
  have hok : (options.build l).result = .ok ⟨"Some system registers", [t]⟩ := by decide
  obtain ⟨r, hr, htables⟩ := build_showsDifferences options hl hknown
  obtain rfl : r = ⟨"Some system registers", [t]⟩ := Except.ok.inj (hr.symm.trans hok)
  have hshows (field : String) (hfield : field ∈ ["x", "y"]) : t.ShowsDifferences options l field :=
    htables t List.mem_cons_self ⟨"a", "R", ⟨[("x", "1"), ("y", "0")]⟩⟩ rfl field hfield
  have hx := hshows "x" (by decide)
  have hy := hshows "y" (by decide)
  refine ⟨hl, hknown, hok, hx, ?_, hy, ?_⟩
  · exact hx.row_of_values rfl "1" (by decide) "2" (by decide) (by decide)
  · exact hy.not_row_of_values rfl rfl (by decide)

/-- **A value that stands alone is not shown** in the order of the source: one environment reported
the field and another one did not, and the table has no row for it. -/
theorem not_shown_of_unreported :
    let options : ReportOptions := { policy := .sourceOrder, differingOnly := true }
    let first : Observation := ⟨"a", "R", ⟨[("x", "1")]⟩⟩
    let l : List Observation := [first, ⟨"b", "R", ⟨[]⟩⟩]
    let t : RegisterTable := ⟨0, "R", ["a", "b"], []⟩
    (∀ o ∈ l, o.environment ≠ "" ∧ o.register ≠ "") ∧
      (options.build l).result = .ok ⟨"Some system registers", [t]⟩ ∧
      l.find? (·.register = t.register) = some first ∧ "x" ∈ first.fields.names ∧
      t.IsDisputed l "x" ∧ ¬t.HasRow "x" := by
  refine ⟨by decide, by decide, by decide, by decide, ⟨"a", ?_, "b", ?_, ?_⟩, ?_⟩
  · decide
  · decide
  · decide
  · unfold RegisterTable.HasRow
    decide

end ReportOptions

/-! ### The report with fewer rows -/

/-- The second table is the first one without its uniform rows. -/
structure RegisterTable.IsReducedTo (t t' : RegisterTable) : Prop where
  /-- The number is the same. -/
  index : t'.index = t.index
  /-- The register is the same. -/
  register : t'.register = t.register
  /-- The columns are the same. -/
  environments : t'.environments = t.environments
  /-- The rows are those with two different cells, wherever these stand, in their order. -/
  rows : t'.rows = t.rows.filter fun row => ∃ c ∈ row.cells, ∃ d ∈ row.cells, c ≠ d
  /-- A row without cells or with a single one is none of them. -/
  two_le_length : ∀ row ∈ t'.rows, 2 ≤ row.cells.length
  /-- Without rows that differ the table is empty. -/
  rows_eq_nil : (∀ row ∈ t.rows, ∀ c ∈ row.cells, ∀ d ∈ row.cells, c = d) → t'.rows = []

theorem Row.two_le_length_of_ne {row : Row} {c d : String} (hc : c ∈ row.cells)
    (hd : d ∈ row.cells) (hne : c ≠ d) : 2 ≤ row.cells.length := by
  match hcells : row.cells with
  | [] => simp [hcells] at hc
  | [e] =>
    rw [hcells, List.mem_singleton] at hc hd
    exact absurd (hc.trans hd.symm) hne
  | _ :: _ :: cells => simp

/-- A table is reduced by keeping the rows with two different cells. -/
theorem RegisterTable.isReducedTo_filter (t : RegisterTable) :
    t.IsReducedTo
      { t with rows := t.rows.filter fun row => ∃ c ∈ row.cells, ∃ d ∈ row.cells, c ≠ d } where
  index := rfl
  register := rfl
  environments := rfl
  rows := rfl
  two_le_length row hrow := by
    obtain ⟨c, hc, d, hd, hne⟩ := of_decide_eq_true (List.mem_filter.1 hrow).2
    exact row.two_le_length_of_ne hc hd hne
  rows_eq_nil hconstant := by
    refine List.filter_eq_nil_iff.2 fun row hrow hdiffer => ?_
    obtain ⟨c, hc, d, hd, hne⟩ := of_decide_eq_true hdiffer
    exact hne (hconstant row hrow c hc d hd)

namespace ReportOptions

/-- The rows that are not uniform are those with two different cells. -/
theorem filter_not_isUniform (rows : List Row) :
    rows.filter (!·.isUniform)
      = rows.filter fun row => ∃ c ∈ row.cells, ∃ d ∈ row.cells, c ≠ d := by
  refine List.filter_congr fun row _ => ?_
  rw [Bool.eq_iff_iff, Bool.not_eq_true', ← Bool.not_eq_true, Row.isUniform_iff,
    decide_eq_true_iff]
  simp only [not_forall, exists_prop, ne_eq]

/-- The table of a group with uniform rows left out. -/
theorem isReducedTo_groupTable (options : ReportOptions) (number : ℕ) (g : RegisterGroup) :
    ({ options with differingOnly := false }.groupTable number g).IsReducedTo
      ({ options with differingOnly := true }.groupTable number g) := by
  have hreduced := ({ options with differingOnly := false }.groupTable number g).isReducedTo_filter
  rw [← filter_not_isUniform] at hreduced
  exact hreduced

/-- **Uniform rows are left out and nothing else.** If there is a report, there is one with all rows
and one without the uniform ones, and they differ in these rows alone. -/
theorem build_differingOnly (options : ReportOptions) {r₀ : Report}
    (h : (options.build l).result = .ok r₀) :
    ∃ r r', ({ options with differingOnly := false }.build l).result = .ok r ∧
      ({ options with differingOnly := true }.build l).result = .ok r' ∧
      r'.title = r.title ∧ List.Forall₂ RegisterTable.IsReducedTo r.tables r'.tables := by
  obtain ⟨hl, hknown⟩ := reportable_and_known_of_result_build h
  have hbuild (differingOnly : Bool) :
      ({ options with differingOnly }.build l).result = .ok ⟨options.title,
        { options with differingOnly }.tablesFrom 0
          ((options.selection l).map (RegisterGroup.ofRegister l))⟩ :=
    congrArg Logged.result (@build_of_known { options with differingOnly } l hl hknown)
  refine ⟨_, _, hbuild false, hbuild true, rfl, ?_⟩
  rw [tablesFrom, tablesFrom, List.forall₂_map_left_iff, List.forall₂_map_right_iff]
  exact List.forall₂_same.2 fun p _ => isReducedTo_groupTable options p.2 p.1

/-- Cells that differ without being neighbours, a row of the same cells, a row with one cell, and a
table that loses all its rows. -/
theorem build_differingOnly_apart :
    let options : ReportOptions := { policy := .sourceOrder }
    let l : List Observation :=
      [⟨"a", "R", ⟨[("x", "1"), ("y", "0"), ("z", "5")]⟩⟩, ⟨"b", "R", ⟨[("x", "1"), ("y", "0")]⟩⟩,
        ⟨"c", "R", ⟨[("x", "2"), ("y", "0")]⟩⟩, ⟨"a", "S", ⟨[("w", "3")]⟩⟩]
    let r : Report := ⟨"Some system registers",
      [⟨0, "R", ["a", "b", "c"], [⟨"x", ["1", "1", "2"]⟩, ⟨"y", ["0", "0", "0"]⟩, ⟨"z", ["5"]⟩]⟩,
        ⟨1, "S", ["a"], [⟨"w", ["3"]⟩]⟩]⟩
    let r' : Report := ⟨"Some system registers",
      [⟨0, "R", ["a", "b", "c"], [⟨"x", ["1", "1", "2"]⟩]⟩, ⟨1, "S", ["a"], []⟩]⟩
    (options.build l).result = .ok r ∧
      ({ options with differingOnly := true }.build l).result = .ok r' ∧
      r'.title = r.title ∧ List.Forall₂ RegisterTable.IsReducedTo r.tables r'.tables := by
  intro options l r r'
  have hok : (options.build l).result = .ok r := by decide
  have hok' : ({ options with differingOnly := true }.build l).result = .ok r' := by decide
  obtain ⟨s, s', hs, hs', htitle, htables⟩ := build_differingOnly options hok
  obtain rfl := Except.ok.inj (hs.symm.trans hok)
  obtain rfl := Except.ok.inj (hs'.symm.trans hok')
  exact ⟨hok, hok', htitle, htables⟩

end ReportOptions

end RegisterTables
