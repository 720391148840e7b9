import RegisterTables.Proofs.Answers
import RegisterTables.Proofs.ByteOrder
import RegisterTables.Proofs.Lossless

/-!
# Every event of building

What building logs can be told from the list of observations alone: first how many there are, and
then, register by register in the order of the tables, what the table of the register cannot show
(`ReportOptions.build_warnings`). There are two kinds of warnings about a register, and all of the
first kind come before those of the second kind.

The warnings about sets of field names are made one observation at a time, so an observation gets
its warning exactly if its set is not that of the first one. The warnings about environments that
report again are made along the list, with a record of the environments met so far. The record
always holds the environments of the observations passed by, so what is warned about are the
observations whose environment stands somewhere in front of them
(`RegisterGroup.repeatWarnings_eq`).
-/

namespace RegisterTables

/-! ### What there is to warn about -/

/-- Names that one list has and another one lacks: all of them, in ascending order of their
bytes. -/
structure AreLacking (lacking names others : List String) : Prop where
  /-- They are the names that the other list lacks. -/
  mem_iff : ∀ name, name ∈ lacking ↔ name ∈ names ∧ name ∉ others
  /-- They ascend strictly, so none is repeated. -/
  ascending : lacking.Pairwise fun a b => Text.bytes a < Text.bytes b

/-- The warning that an observation has other field names than the first one of its register. -/
inductive IsFieldSetWarning (register : String) (first o : Observation) : Event → Prop where
  | intro {missing extra : List String}
      (hmissing : AreLacking missing first.fields.names o.fields.names)
      (hextra : AreLacking extra o.fields.names first.fields.names) :
      IsFieldSetWarning register first o (.fieldSetDiffers register o.environment missing extra)

/-- The observations whose environment has occurred before, in their order. -/
def reportedAgain (os : List Observation) : List Observation :=
  (os.zipIdx.filter fun (o, i) => o.environment ∈ (os.take i).map Observation.environment).map
    Prod.fst

/-- The events are the warnings that the observations of a register call for. -/
inductive AreWarningsAbout (l : List Observation) (register : String) : List Event → Prop where
  | intro {first : Observation} {rest : List Observation} {fieldSets : List Event}
      (hl : l.filter (·.register = register) = first :: rest)
      (hfieldSets : List.Forall₂ (IsFieldSetWarning register first)
        (rest.filter fun o => o.fields.names.toFinset ≠ first.fields.names.toFinset) fieldSets) :
      AreWarningsAbout l register (fieldSets ++
        (reportedAgain (first :: rest)).map fun o => .environmentRepeated register o.environment)

/-! ### Sets of field names -/

theorem Ascending.areLacking_diff (names others : List String) :
    AreLacking (diff (ofList names) (ofList others)) names others where
  mem_iff name := by rw [mem_diff, mem_ofList, mem_ofList]
  ascending := ((pairwise_ofList names).filter _).imp Text.bytes_lt_iff.2

/-- What is made of the elements of a list that are not passed over is made of those with a
property, if just these are not passed over. -/
theorem forall₂_filter_filterMap {α β : Type} {R : α → β → Prop} {p : α → Bool} {f : α → Option β}
    (hnone : ∀ a, p a = false → f a = none) (hsome : ∀ a, p a = true → ∃ b, f a = some b ∧ R a b)
    (l : List α) : List.Forall₂ R (l.filter p) (l.filterMap f) := by
  induction l with
  | nil => exact .nil
  | cons a l ih =>
    cases ha : p a with
    | false =>
      rw [List.filter_cons_of_neg (Bool.eq_false_iff.1 ha), List.filterMap_cons_none (hnone a ha)]
      exact ih
    | true =>
      obtain ⟨b, hb, hR⟩ := hsome a ha
      rw [List.filter_cons_of_pos ha, List.filterMap_cons_some hb]
      exact .cons hR ih

namespace RegisterGroup

variable {g : RegisterGroup} {first o : Observation}

/-- A warning is given exactly about an observation with another set of field names. -/
theorem fieldSetWarning?_eq_none_iff_toFinset (h : g.fieldOrder = first.fields.names) :
    g.fieldSetWarning? o = none ↔ o.fields.names.toFinset = first.fields.names.toFinset := by
  rw [fieldSetWarning?_eq_none_iff, h, Finset.ext_iff]
  simp only [List.mem_toFinset]

/-- The warning that is given says which names are missing and which are extra. -/
theorem isFieldSetWarning_of_eq_some (h : g.fieldOrder = first.fields.names) {e : Event}
    (he : g.fieldSetWarning? o = some e) : IsFieldSetWarning g.register first o e := by
  dsimp only [fieldSetWarning?] at he
  split_ifs at he
  obtain rfl := Option.some.inj he
  rw [h]
  exact .intro (Ascending.areLacking_diff _ _) (Ascending.areLacking_diff _ _)

/-- The warnings about sets of field names, in order. -/
theorem forall₂_fieldSetWarning? (h : g.fieldOrder = first.fields.names)
    (rest : List Observation) :
    List.Forall₂ (IsFieldSetWarning g.register first)
      (rest.filter fun o => o.fields.names.toFinset ≠ first.fields.names.toFinset)
      (rest.filterMap g.fieldSetWarning?) := by
  refine forall₂_filter_filterMap (fun o ho => ?_) (fun o ho => ?_) rest
  · rw [fieldSetWarning?_eq_none_iff_toFinset h]
    exact not_not.1 (of_decide_eq_false ho)
  · have hne : g.fieldSetWarning? o ≠ none := by
      rw [ne_eq, fieldSetWarning?_eq_none_iff_toFinset h]
      exact of_decide_eq_true ho
    obtain ⟨e, he⟩ := Option.ne_none_iff_exists'.1 hne
    exact ⟨e, he, isFieldSetWarning_of_eq_some h he⟩

/-! ### Environments that report again -/

/-- The warnings about the observations that follow others, if just the environments of these were
met before. -/
theorem repeatWarnings_eq_filter (register : String) {seen : List String}
    {before : List Observation}
    (hseen : ∀ label, label ∈ seen ↔ label ∈ before.map Observation.environment)
    (os : List Observation) :
    repeatWarnings register seen os =
      ((os.zipIdx before.length).filter fun (o, i) =>
        o.environment ∈ ((before ++ os).take i).map Observation.environment).map
          fun (o, _) => .environmentRepeated register o.environment := by
  induction os generalizing seen before with
  | nil => rfl
  | cons o os ih =>
    -- What stands in front of `o` is `before`, and for the rest `o` belongs to it as well.
    have htake : (before ++ o :: os).take before.length = before := List.take_left
    have hsplit : before ++ o :: os = (before ++ [o]) ++ os := by
      rw [List.append_assoc, List.singleton_append]
    have hlength : before.length + 1 = (before ++ [o]).length := by
      rw [List.length_append, List.length_singleton]
    have hmem (label : String) : label ∈ (before ++ [o]).map Observation.environment ↔
        label ∈ before.map Observation.environment ∨ label = o.environment := by
      rw [List.map_append, List.mem_append, List.map_singleton, List.mem_singleton]
    rw [repeatWarnings, List.zipIdx_cons]
    split_ifs with ho
    · -- The environment was met before, so the record need not grow.
      have hnext : ∀ label, label ∈ seen ↔ label ∈ (before ++ [o]).map Observation.environment := by
        intro label
        rw [hmem, ← hseen]
        exact (or_iff_left_of_imp fun heq => heq ▸ ho).symm
      rw [List.filter_cons_of_pos (by simpa only [htake] using decide_eq_true ((hseen _).1 ho)),
        List.map_cons, ih hnext, hlength, hsplit]
    · have hnext : ∀ label, label ∈ o.environment :: seen ↔
          label ∈ (before ++ [o]).map Observation.environment := by
        intro label
        rw [hmem, List.mem_cons, hseen, or_comm]
      have hnew : o.environment ∉ before.map Observation.environment := mt (hseen _).2 ho
      rw [List.filter_cons_of_neg (by simpa only [htake, decide_eq_true_iff] using hnew),
        ih hnext, hlength, hsplit]

/-- The warnings are about the observations whose environment has occurred before. -/
theorem repeatWarnings_eq (register : String) (os : List Observation) :
    repeatWarnings register [] os =
      (reportedAgain os).map fun o => .environmentRepeated register o.environment := by
  rw [@repeatWarnings_eq_filter register [] [] (by simp) os, reportedAgain, List.map_map]
  rfl

/-- The warnings about the group of a register that occurs. -/
theorem areWarningsAbout_ofRegister {l : List Observation} {register : String}
    (h : ∃ o ∈ l, o.register = register) :
    AreWarningsAbout l register (ofRegister l register).warnings := by
  obtain ⟨first, rest, hcons, hfields⟩ := exists_cons_ofRegister h
  rw [warnings, hcons, List.drop_one, List.tail_cons, repeatWarnings_eq]
  exact .intro hcons (forall₂_fieldSetWarning? hfields rest)

end RegisterGroup

/-! ### The events -/

namespace ReportOptions

variable {options options' : ReportOptions} {l : List Observation}

/-- What is logged depends on the registers asked for and on nothing else. -/
theorem events_build_congr (h : options'.registers = options.registers) :
    (options'.build l).events = (options.build l).events := by
  have hunknown : options'.unknown? = options.unknown? := by
    funext groups
    rw [unknown?, unknown?, h]
  have hincludes : options'.includes = options.includes := by
    funext register
    rw [includes, includes, h]
  rw [build, build]
  cases malformed? l with
  | some e => rfl
  | none =>
    simp only [hunknown, hincludes]
    cases options.unknown? (groupObservations l) <;> rfl

/-- **Every event of building.** If there is a report, what is logged is the grouping and then, in
the order of the tables, the warnings about their registers, and all of these are warnings in level
too. The registers that are not asked for have no table, and neither title nor policy nor the choice
of rows matters. -/
theorem build_warnings (options : ReportOptions) {r : Report}
    (h : (options.build l).result = .ok r) :
    (∃ warnings : List (List Event),
      (options.build l).events = groupingEvent l :: warnings.flatten ∧
      List.Forall₂ (fun t events => AreWarningsAbout l t.register events) r.tables warnings) ∧
    (groupingEvent l).level = .debug ∧
    (∀ e ∈ (options.build l).events.tail, e.level = .warn) ∧
    (∀ t ∈ r.tables, options.registers = [] ∨ t.register ∈ options.registers) ∧
    ∀ options' : ReportOptions, options'.registers = options.registers →
      (options'.build l).events = (options.build l).events := by
  obtain ⟨hl, hknown⟩ := reportable_and_known_of_result_build h
  have hbuild := build_of_known hl hknown
  rw [hbuild] at h
  obtain rfl := Except.ok.inj h
  refine ⟨⟨((options.selection l).map (RegisterGroup.ofRegister l)).map RegisterGroup.warnings,
    ?_, ?_⟩, rfl, ?_, ?_, fun _ => events_build_congr⟩
  · rw [hbuild, groupingEvent_eq, ← List.flatMap_def]
  · rw [List.forall₂_map_right_iff]
    refine forall₂_tablesFrom fun number g hg => ?_
    obtain ⟨register, hregister, rfl⟩ := List.mem_map.1 hg
    exact RegisterGroup.areWarningsAbout_ofRegister (mem_selection.1 hregister).2
  · intro e he
    rw [hbuild, List.tail_cons] at he
    obtain ⟨g, -, hg⟩ := List.mem_flatMap.1 he
    exact RegisterGroup.level_of_mem_warnings hg
  · intro t ht
    exact (mem_selection.1 (register_mem_of_mem_tablesFrom ht)).1

/-- A register that is not asked for and reported twice, and one whose second observation comes from
another environment with other fields, the third one from the first environment again. -/
theorem build_warnings_differing :
    let options : ReportOptions := { registers := ["R"] }
    let l : List Observation :=
      [⟨"b", "R", ⟨[("y", "1"), ("x", "2"), ("y", "3")]⟩⟩, ⟨"a", "Q", ⟨[]⟩⟩, ⟨"a", "Q", ⟨[]⟩⟩,
        ⟨"a", "R", ⟨[("z", "4"), ("w", "5")]⟩⟩, ⟨"b", "R", ⟨[("x", "6"), ("y", "7")]⟩⟩]
    let r : Report := ⟨"Some system registers",
      [⟨0, "R", ["a", "b"], [⟨"y", ["", "1"]⟩, ⟨"x", ["", "2"]⟩, ⟨"y", ["", "1"]⟩]⟩]⟩
    (options.build l).result = .ok r ∧
      (options.build l).events = [.groupedObservations 5 2 2,
        .fieldSetDiffers "R" "a" ["x", "y"] ["w", "z"], .environmentRepeated "R" "b"] ∧
      ∃ warnings : List (List Event),
        (options.build l).events = groupingEvent l :: warnings.flatten ∧
        List.Forall₂ (fun t events => AreWarningsAbout l t.register events) r.tables warnings := by
  intro options l r
  have hok : (options.build l).result = .ok r := by decide
  exact ⟨hok, by decide, (build_warnings options hok).1⟩

end ReportOptions

end RegisterTables
