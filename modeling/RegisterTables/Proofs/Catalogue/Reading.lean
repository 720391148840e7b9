import RegisterTables.Catalogue.Parse

/-!
# Reading a catalogue without flaws

Where every entry of an outline makes an observation, the reading of the whole consists of these
observations in their order (`Catalogue.read_map`), and parsing a text with such an outline returns
them and logs how many environments there were (`Catalogue.parse_eq_ok`).

The statements speak of a list of anything, of which environments and entries are made by a
function. What a catalogue was made from can thus be put in directly.
-/

namespace RegisterTables.Catalogue

/-! ### Entries -/

/-- The fields among members, each with its text. -/
def fieldTexts (members : List (String × Content)) : List (String × String) :=
  members.filterMap fun m => if m.1 = nameKey then none else m.2.text?.map fun text => (m.1, text)

/-- The fields are found if all members beside the name have a text. -/
theorem fields_eq_ok (label register : String) {members : List (String × Content)}
    (h : ∀ m ∈ members, m.1 ≠ nameKey → m.2.text?.isSome) :
    fields label register members = .ok (fieldTexts members) := by
  induction members with
  | nil => rfl
  | cons m members ih =>
    obtain ⟨key, content⟩ := m
    have hrest := ih fun m hm => h m (List.mem_cons_of_mem _ hm)
    rw [fields, fieldTexts, List.filterMap_cons]
    by_cases hkey : key = nameKey
    · rw [if_pos hkey, if_pos hkey]
      exact hrest
    · obtain ⟨text, htext⟩ := Option.isSome_iff_exists.1 (h _ List.mem_cons_self hkey)
      rw [if_neg hkey, if_neg hkey, htext, hrest]
      rfl

/-- An entry with a name and otherwise texts makes an observation. -/
theorem RegisterEntry.read_eq_ofObservation {label register : String}
    {members : List (String × Content)}
    (hname : members.lookup nameKey = some (.string register))
    (h : ∀ m ∈ members, m.1 ≠ nameKey → m.2.text?.isSome) :
    RegisterEntry.read label (some members)
      = .ofObservation ⟨label, register, ⟨fieldTexts members⟩⟩ := by
  simp only [RegisterEntry.read, hname, Option.bind_some, Content.string?,
    fields_eq_ok label register h]

/-! ### Lists of entries -/

section

variable {α β : Type}

/-- The readings of entries without flaws follow each other. -/
theorem readRegisters_map {label : String} {entry : α → RegisterEntry} {make : α → Observation}
    {rs : List α} (h : ∀ r ∈ rs, (entry r).read label = .ofObservation (make r)) :
    readRegisters label (rs.map entry) = ⟨rs.map make, none⟩ := by
  induction rs with
  | nil => rfl
  | cons r rs ih =>
    rw [List.map_cons, readRegisters, h r List.mem_cons_self,
      ih fun r' hr' => h r' (List.mem_cons_of_mem _ hr')]
    rfl

/-- The readings of environments without flaws follow each other, wherever they stand. -/
theorem readEnvironments_map {entry : β → Option EnvironmentEntry} {make : β → List Observation}
    {es : List β} (h : ∀ e ∈ es, ∀ i, readEnvironment i (entry e) = ⟨make e, none⟩) (index : Nat) :
    readEnvironments index (es.map entry) = ⟨es.flatMap make, none⟩ := by
  induction es generalizing index with
  | nil => rfl
  | cons e es ih =>
    rw [List.map_cons, readEnvironments, h e List.mem_cons_self,
      ih (fun e' he' => h e' (List.mem_cons_of_mem _ he'))]
    rfl

/-- **A catalogue without flaws** is read into the observations of its entries, in order. -/
theorem read_map {label : β → String} {registers : β → List α} {entry : α → RegisterEntry}
    {make : β → α → Observation} {es : List β}
    (h : ∀ e ∈ es, ∀ r ∈ registers e, (entry r).read (label e) = .ofObservation (make e r)) :
    Outline.read (some (es.map fun e => some ⟨some (label e), some ((registers e).map entry)⟩))
      = ⟨es.flatMap fun e => (registers e).map (make e), none⟩ := by
  refine readEnvironments_map ?_ 0
  intro e he i
  exact readRegisters_map fun r hr => h e he r hr

end

/-! ### Parsing -/

/-- A text whose outline has no flaw is parsed into its observations. -/
theorem parse_eq_ok {text : String} {format : Format} {o : Outline} {os : List Observation}
    (houtline : outline text format = .ok o) (hread : o.read = ⟨os, none⟩) (origin : String) :
    parse origin text format
      = ⟨.ok os, [.loadedCatalogue origin o.size os.length]⟩ := by
  have hobservations : o.observations format = .ok os := by rw [Outline.observations, hread]
  rw [parse, houtline]
  simp only [hobservations]

/-- A text whose outline has a flaw is not parsed, and the observations before it are counted. -/
theorem parse_eq_error {text : String} {format : Format} {o : Outline} {os : List Observation}
    {flaw : Flaw} (houtline : outline text format = .ok o) (hread : o.read = ⟨os, some flaw⟩)
    (origin : String) :
    parse origin text format
      = ⟨.error (.malformedObservation os.length (flaw.reason format)), []⟩ := by
  have hobservations : o.observations format
      = .error (.malformedObservation os.length (flaw.reason format)) := by
    rw [Outline.observations, hread]
  rw [parse, houtline]
  simp only [hobservations]

/-- Observations are returned exactly if the text has an outline without flaws. -/
theorem result_parse_eq_ok_iff {origin text : String} {format : Format} {os : List Observation} :
    (parse origin text format).result = .ok os ↔
      ∃ o, outline text format = .ok o ∧ o.read = ⟨os, none⟩ := by
  constructor
  · intro h
    cases houtline : outline text format with
    | error detail =>
      rw [parse, houtline] at h
      cases h
    | ok o =>
      refine ⟨o, rfl, ?_⟩
      rcases hread : o.read with ⟨os', flaw?⟩
      cases flaw? with
      | some flaw =>
        rw [parse_eq_error houtline hread] at h
        cases h
      | none =>
        rw [parse_eq_ok houtline hread] at h
        exact congrArg (Reading.mk · none) (Except.ok.inj h)
  · rintro ⟨o, houtline, hread⟩
    rw [parse_eq_ok houtline hread]

end RegisterTables.Catalogue
