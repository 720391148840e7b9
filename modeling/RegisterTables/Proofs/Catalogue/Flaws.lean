import RegisterTables.Proofs.Catalogue.Reading
import Mathlib.Data.List.Forall2

/-!
# The first flaw of a catalogue

Reading a catalogue stops at the first thing that is not what it should be. Here it is said what
that is without reading anything: which entries make an observation (`RegisterEntry.Makes`), what is
wrong with the others (`RegisterEntry.Offends`, `Offends`), and which flaw of a list of environments
is the first one (`HasFirstFlaw`).

Each entry either makes an observation or has a flaw, and so on for lists of entries and lists of
environments (`readEnvironments_cases`): either the environments make the observations that are
read, or they have the flaw that is found, and then as many observations come before it as have been
read. Conversely a first flaw is found whatever stands behind it
(`HasFirstFlaw.exists_readEnvironments`).
-/

namespace RegisterTables.Catalogue

/-! ### Entries of registers -/

/-- The field has the text of a member. -/
def IsFieldOf (m : String × Content) (f : String × String) : Prop :=
  m.1 = f.1 ∧ m.2.text? = some f.2

/-- An entry makes an observation in an environment: it is a table with a name, and each other
member is a field. -/
inductive RegisterEntry.Makes (label : String) : RegisterEntry → Observation → Prop where
  | intro {members : List (String × Content)} {register : String}
      {entries : List (String × String)}
      (hname : members.lookup nameKey = some (.string register))
      (hfields : List.Forall₂ IsFieldOf (members.filter (·.1 ≠ nameKey)) entries) :
      Makes label (some members) ⟨label, register, ⟨entries⟩⟩

/-- A list stands in relation to another one exactly if each of its elements stands in relation to
something. -/
theorem exists_forall₂_iff {α β : Type} {R : α → β → Prop} {l : List α} :
    (∃ m, List.Forall₂ R l m) ↔ ∀ a ∈ l, ∃ b, R a b := by
  induction l with
  | nil => exact ⟨fun _ => List.forall_mem_nil _, fun _ => ⟨[], .nil⟩⟩
  | cons a l ih =>
    rw [List.forall_mem_cons, ← ih]
    constructor
    · rintro ⟨_, h⟩
      obtain ⟨b, m, hb, hm, -⟩ := List.forall₂_cons_left_iff.1 h
      exact ⟨⟨b, hb⟩, m, hm⟩
    · rintro ⟨⟨b, hb⟩, m, hm⟩
      exact ⟨b :: m, .cons hb hm⟩

/-- An entry makes an observation exactly if it has a name that is a string and each other member
has a text. -/
theorem RegisterEntry.exists_makes_iff {label : String} {members : List (String × Content)} :
    (∃ o, RegisterEntry.Makes label (some members) o) ↔
      (∃ register, members.lookup nameKey = some (.string register)) ∧
      ∀ m ∈ members, m.1 ≠ nameKey → ∃ text, m.2.text? = some text := by
  have hfields : (∃ entries, List.Forall₂ IsFieldOf (members.filter (·.1 ≠ nameKey)) entries) ↔
      ∀ m ∈ members, m.1 ≠ nameKey → ∃ text, m.2.text? = some text := by
    rw [exists_forall₂_iff, List.forall_mem_filter]
    refine forall₂_congr fun m _ => ?_
    rw [decide_eq_true_iff]
    refine imp_congr_right fun _ => ⟨fun ⟨f, hf⟩ => ⟨f.2, hf.2⟩, fun ⟨text, htext⟩ => ?_⟩
    exact ⟨(m.1, text), rfl, htext⟩
  rw [← hfields]
  constructor
  · rintro ⟨_, ⟨hname, hentries⟩⟩
    exact ⟨⟨_, hname⟩, _, hentries⟩
  · rintro ⟨⟨register, hname⟩, entries, hentries⟩
    exact ⟨_, .intro hname hentries⟩

/-- An entry has a flaw. A name that is missing counts before the fields, and of the fields the
first one that has no text counts. -/
inductive RegisterEntry.Offends (label : String) : RegisterEntry → Flaw → Prop where
  /-- There are no members. -/
  | notTable : Offends label none (.registerNotTable label)
  /-- There is no name that is a text. -/
  | unnamed {members : List (String × Content)}
      (hname : ∀ register, members.lookup nameKey ≠ some (.string register)) :
      Offends label (some members) (.registerUnnamed label)
  /-- A field has parts of its own, and those before it have none. -/
  | notScalar {before after : List (String × Content)} {field register : String}
      (hname : (before ++ (field, .compound) :: after).lookup nameKey = some (.string register))
      (hfield : field ≠ nameKey) (hbefore : ∀ m ∈ before, m.1 = nameKey ∨ m.2.text?.isSome) :
      Offends label (some (before ++ (field, .compound) :: after))
        (.fieldNotScalar field register label)

/-- Either all fields have texts, or there is a first one that has none. -/
theorem fields_cases (label register : String) (members : List (String × Content)) :
    (∃ entries, fields label register members = .ok entries ∧
      List.Forall₂ IsFieldOf (members.filter (·.1 ≠ nameKey)) entries) ∨
    ∃ before field after, members = before ++ (field, .compound) :: after ∧ field ≠ nameKey ∧
      (∀ m ∈ before, m.1 = nameKey ∨ m.2.text?.isSome) ∧
      fields label register members = .error (.fieldNotScalar field register label) := by
  induction members with
  | nil => exact .inl ⟨[], rfl, .nil⟩
  | cons m members ih =>
    obtain ⟨key, content⟩ := m
    by_cases hkey : key = nameKey
    · -- The name is passed over.
      have hfields : fields label register ((key, content) :: members)
          = fields label register members := by rw [fields, if_pos hkey]
      rw [hfields, List.filter_cons_of_neg (by simpa using hkey)]
      rcases ih with hok | ⟨before, field, after, rfl, hfield, hbefore, herror⟩
      · exact .inl hok
      · refine .inr ⟨(key, content) :: before, field, after, rfl, hfield, ?_, herror⟩
        exact List.forall_mem_cons.2 ⟨.inl hkey, hbefore⟩
    · cases htext : content.text? with
      | none =>
        obtain rfl : content = .compound := by cases content <;> simp_all [Content.text?]
        refine .inr ⟨[], key, members, rfl, hkey, List.forall_mem_nil _, ?_⟩
        rw [fields, if_neg hkey]
        rfl
      | some text =>
        have hfields : fields label register ((key, content) :: members)
            = (fields label register members).map ((key, text) :: ·) := by
          rw [fields, if_neg hkey]
          simp only [htext]
          cases fields label register members <;> rfl
        rw [hfields, List.filter_cons_of_pos (by simpa using hkey)]
        rcases ih with
          ⟨entries, hok, hentries⟩ | ⟨before, field, after, rfl, hfield, hbefore, herror⟩
        · exact .inl ⟨(key, text) :: entries, by rw [hok]; rfl, .cons ⟨rfl, htext⟩ hentries⟩
        · refine .inr ⟨(key, content) :: before, field, after, rfl, hfield, ?_, by rw [herror]; rfl⟩
          exact List.forall_mem_cons.2 ⟨.inr (by rw [htext]; rfl), hbefore⟩

/-- Fields that have the texts of all members beside the name are the fields that are found. -/
theorem fields_of_isFieldOf {label register : String} {members : List (String × Content)}
    {entries : List (String × String)}
    (h : List.Forall₂ IsFieldOf (members.filter (·.1 ≠ nameKey)) entries) :
    fields label register members = .ok entries := by
  induction members generalizing entries with
  | nil =>
    obtain rfl := List.forall₂_nil_left_iff.1 h
    rfl
  | cons m members ih =>
    obtain ⟨key, content⟩ := m
    by_cases hkey : key = nameKey
    · rw [List.filter_cons_of_neg (by simpa using hkey)] at h
      rw [fields, if_pos hkey]
      exact ih h
    · rw [List.filter_cons_of_pos (by simpa using hkey)] at h
      obtain ⟨f, fs, ⟨hname, htext⟩, hrest, rfl⟩ := List.forall₂_cons_left_iff.1 h
      obtain ⟨name, text⟩ := f
      obtain rfl : key = name := hname
      rw [fields, if_neg hkey]
      simp only [htext, ih hrest]
      rfl

/-- A field with parts of its own is a flaw if those before it have none. -/
theorem fields_eq_error {label register field : String} {before : List (String × Content)}
    (hfield : field ≠ nameKey) (hbefore : ∀ m ∈ before, m.1 = nameKey ∨ m.2.text?.isSome)
    (after : List (String × Content)) :
    fields label register (before ++ (field, .compound) :: after)
      = .error (.fieldNotScalar field register label) := by
  induction before with
  | nil =>
    rw [List.nil_append, fields, if_neg hfield]
    rfl
  | cons m before ih =>
    obtain ⟨key, content⟩ := m
    obtain ⟨hhead, htail⟩ := List.forall_mem_cons.1 hbefore
    rw [List.cons_append, fields, ih htail]
    by_cases hkey : key = nameKey
    · rw [if_pos hkey]
    · obtain ⟨text, htext⟩ := Option.isSome_iff_exists.1 (hhead.resolve_left hkey)
      rw [if_neg hkey]
      simp only [htext]
      rfl

/-- What stands behind a field with parts of its own does not matter. -/
theorem fields_append_compound (label register : String) {field : String} (hfield : field ≠ nameKey)
    (before after after' : List (String × Content)) :
    fields label register (before ++ (field, .compound) :: after)
      = fields label register (before ++ (field, .compound) :: after') := by
  induction before with
  | nil =>
    rw [List.nil_append, List.nil_append, fields, fields, if_neg hfield, if_neg hfield]
    rfl
  | cons m before ih => rw [List.cons_append, List.cons_append, fields, fields, ih]

/-- An entry makes an observation or has a flaw. -/
theorem RegisterEntry.read_cases (label : String) (entry : RegisterEntry) :
    (∃ o, entry.Makes label o ∧ entry.read label = .ofObservation o) ∨
      ∃ flaw, entry.Offends label flaw ∧ entry.read label = .ofFlaw flaw := by
  cases entry with
  | none => exact .inr ⟨_, .notTable, rfl⟩
  | some members =>
    cases hname : (members.lookup nameKey).bind Content.string? with
    | none =>
      refine .inr ⟨_, .unnamed ?_, by simp only [read, hname]⟩
      intro register hregister
      rw [hregister] at hname
      exact absurd hname (by simp [Content.string?])
    | some register =>
      have hlookup : members.lookup nameKey = some (.string register) := by
        obtain ⟨content, hcontent, hstring⟩ := Option.bind_eq_some_iff.1 hname
        obtain rfl := Content.string?_eq_some_iff.1 hstring
        exact hcontent
      rcases fields_cases label register members with
        ⟨entries, hok, hentries⟩ | ⟨before, field, after, rfl, hfield, hbefore, herror⟩
      · exact .inl ⟨_, .intro hlookup hentries, by simp only [read, hname, hok]⟩
      · exact .inr ⟨_, .notScalar hlookup hfield hbefore, by simp only [read, hname, herror]⟩

/-- An entry is read as an observation exactly if it makes it. -/
theorem RegisterEntry.read_eq_ofObservation_iff {label : String} {entry : RegisterEntry}
    {o : Observation} : entry.read label = .ofObservation o ↔ entry.Makes label o := by
  constructor
  · intro h
    rcases entry.read_cases label with ⟨o', hmakes, hread⟩ | ⟨flaw, -, hread⟩
    · rw [hread] at h
      obtain rfl : o' = o := List.head_eq_of_cons_eq (congrArg Reading.observations h)
      exact hmakes
    · rw [hread] at h
      exact absurd (congrArg Reading.flaw? h) (Option.some_ne_none flaw)
  · rintro ⟨hname, hfields⟩
    simp only [read, hname, Option.bind_some, Content.string?, fields_of_isFieldOf hfields]

/-- An entry is read as a flaw exactly if it has it. -/
theorem RegisterEntry.read_eq_ofFlaw_iff {label : String} {entry : RegisterEntry} {flaw : Flaw} :
    entry.read label = .ofFlaw flaw ↔ entry.Offends label flaw := by
  constructor
  · intro h
    rcases entry.read_cases label with ⟨o, -, hread⟩ | ⟨flaw', hoffends, hread⟩
    · rw [hread] at h
      exact absurd (congrArg Reading.flaw? h).symm (Option.some_ne_none flaw)
    · rw [hread] at h
      obtain rfl : flaw' = flaw := Option.some.inj (congrArg Reading.flaw? h)
      exact hoffends
  · intro h
    cases h with
    | notTable => rfl
    | @unnamed members hname =>
      have hnone : (members.lookup nameKey).bind Content.string? = none := by
        rw [Option.bind_eq_none_iff]
        intro content hcontent
        cases content with
        | string register => exact absurd hcontent (hname register)
        | _ => rfl
      simp only [read, hnone]
    | notScalar hname hfield hbefore =>
      simp only [read, hname, Option.bind_some, Content.string?, fields_eq_error hfield hbefore]

/-! ### Lists of registers -/

/-- Entries make observations, one each. -/
abbrev MakeAll (label : String) : List RegisterEntry → List Observation → Prop :=
  List.Forall₂ (RegisterEntry.Makes label)

/-- All entries make observations, or there is a first one that has a flaw. -/
theorem readRegisters_cases (label : String) (entries : List RegisterEntry) :
    (∃ os, MakeAll label entries os ∧ readRegisters label entries = ⟨os, none⟩) ∨
    ∃ before entry after os flaw, entries = before ++ entry :: after ∧ MakeAll label before os ∧
      entry.Offends label flaw ∧ readRegisters label entries = ⟨os, some flaw⟩ := by
  induction entries with
  | nil => exact .inl ⟨[], .nil, rfl⟩
  | cons entry entries ih =>
    rcases entry.read_cases label with ⟨o, hmakes, hread⟩ | ⟨flaw, hoffends, hread⟩
    · rcases ih with
        ⟨os, hall, hrest⟩ | ⟨before, entry', after, os, flaw, rfl, hall, hoffends, hrest⟩
      · exact .inl ⟨o :: os, .cons hmakes hall, by rw [readRegisters, hread, hrest]; rfl⟩
      · refine .inr ⟨entry :: before, entry', after, o :: os, flaw, rfl, .cons hmakes hall,
          hoffends, ?_⟩
        rw [readRegisters, hread, hrest]
        rfl
    · refine .inr ⟨[], entry, entries, [], flaw, rfl, .nil, hoffends, ?_⟩
      rw [readRegisters, hread]
      rfl

/-- Entries are read as observations exactly if they make them. -/
theorem readRegisters_eq_iff {label : String} {entries : List RegisterEntry}
    {os : List Observation} :
    readRegisters label entries = ⟨os, none⟩ ↔ MakeAll label entries os := by
  constructor
  · intro h
    rcases readRegisters_cases label entries with
      ⟨os', hall, hread⟩ | ⟨before, entry, after, os', flaw, rfl, -, -, hread⟩
    · obtain rfl : os' = os := congrArg Reading.observations (hread.symm.trans h)
      exact hall
    · exact absurd (congrArg Reading.flaw? (hread.symm.trans h)) (Option.some_ne_none flaw)
  · intro h
    induction h with
    | nil => rfl
    | cons hmakes _ ih =>
      rw [readRegisters, RegisterEntry.read_eq_ofObservation_iff.2 hmakes, ih]
      rfl

/-- The entries of two lists are read one after the other. -/
theorem readRegisters_append (label : String) (entries entries' : List RegisterEntry) :
    readRegisters label (entries ++ entries')
      = (readRegisters label entries).append (readRegisters label entries') := by
  induction entries with
  | nil => rfl
  | cons entry entries ih =>
    rw [List.cons_append, readRegisters, readRegisters, ih, Reading.append_assoc]

/-! ### Lists of environments -/

/-- The entry of an environment has a flaw of its own, whatever its registers are. -/
inductive Offends (index : ℕ) : Option EnvironmentEntry → Flaw → Prop where
  /-- There are no members. -/
  | notTable : Offends index none (.environmentNotTable index)
  /-- There is no label that is a text. -/
  | unlabelled (registers? : Option (List RegisterEntry)) :
      Offends index (some ⟨none, registers?⟩) (.environmentUnlabelled index)
  /-- Something else stands in the place of the registers. -/
  | registersNotList (label : String) :
      Offends index (some ⟨some label, none⟩) (.registersNotList label)

/-- Environments make observations: those of their entries, one after the other. -/
inductive Make : List (Option EnvironmentEntry) → List Observation → Prop where
  | nil : Make [] []
  | cons {label : String} {registers : List RegisterEntry} {es : List (Option EnvironmentEntry)}
      {os os' : List Observation} (hregisters : MakeAll label registers os) (hrest : Make es os') :
      Make (some ⟨some label, some registers⟩ :: es) (os ++ os')

/-- The observations of environments are those of the first one and those of the others. -/
theorem make_cons_iff {entry : Option EnvironmentEntry} {es : List (Option EnvironmentEntry)}
    {os : List Observation} :
    Make (entry :: es) os ↔
      ∃ label registers os₁ os₂, entry = some ⟨some label, some registers⟩ ∧
        MakeAll label registers os₁ ∧ Make es os₂ ∧ os = os₁ ++ os₂ := by
  constructor
  · intro h
    cases h with
    | cons hregisters hrest => exact ⟨_, _, _, _, rfl, hregisters, hrest, rfl⟩
  · rintro ⟨label, registers, os₁, os₂, rfl, hregisters, hrest, rfl⟩
    exact .cons hregisters hrest

/-- The environments of two lists make the observations of both. -/
theorem Make.append {es es' : List (Option EnvironmentEntry)} {os os' : List Observation}
    (h : Make es os) (h' : Make es' os') : Make (es ++ es') (os ++ os') := by
  induction h with
  | nil => exact h'
  | cons hregisters _ ih =>
    rw [List.cons_append, List.append_assoc]
    exact .cons hregisters ih

/-- The first flaw of a list of environments, with the number of the observations before it. -/
inductive HasFirstFlaw : List (Option EnvironmentEntry) → ℕ → Flaw → Prop where
  /-- It is a flaw of an environment. -/
  | environment {before after : List (Option EnvironmentEntry)} {entry : Option EnvironmentEntry}
      {os : List Observation} {flaw : Flaw} (hbefore : Make before os)
      (hoffends : Offends before.length entry flaw) :
      HasFirstFlaw (before ++ entry :: after) os.length flaw
  /-- It is a flaw of a register. -/
  | register {before after : List (Option EnvironmentEntry)} {label : String}
      {registersBefore registersAfter : List RegisterEntry} {entry : RegisterEntry}
      {os os' : List Observation} {flaw : Flaw} (hbefore : Make before os)
      (hregisters : MakeAll label registersBefore os') (hoffends : entry.Offends label flaw) :
      HasFirstFlaw
        (before ++ some ⟨some label, some (registersBefore ++ entry :: registersAfter)⟩ :: after)
        (os.length + os'.length) flaw

/-- The registers of an environment make observations, it has a flaw of its own, or one of its
registers has the first flaw. -/
theorem readEnvironment_cases (index : ℕ) (entry : Option EnvironmentEntry) :
    (∃ label registers os, entry = some ⟨some label, some registers⟩ ∧
      MakeAll label registers os ∧ readEnvironment index entry = ⟨os, none⟩) ∨
    (∃ flaw, Offends index entry flaw ∧ readEnvironment index entry = .ofFlaw flaw) ∨
    ∃ label before register after os flaw,
      entry = some ⟨some label, some (before ++ register :: after)⟩ ∧ MakeAll label before os ∧
      register.Offends label flaw ∧ readEnvironment index entry = ⟨os, some flaw⟩ := by
  match entry with
  | none => exact .inr (.inl ⟨_, .notTable, rfl⟩)
  | some ⟨none, registers?⟩ => exact .inr (.inl ⟨_, .unlabelled registers?, rfl⟩)
  | some ⟨some label, none⟩ => exact .inr (.inl ⟨_, .registersNotList label, rfl⟩)
  | some ⟨some label, some registers⟩ =>
    rcases readRegisters_cases label registers with
      ⟨os, hall, hread⟩ | ⟨before, register, after, os, flaw, rfl, hall, hoffends, hread⟩
    · exact .inl ⟨label, registers, os, rfl, hall, hread⟩
    · exact .inr (.inr ⟨label, before, register, after, os, flaw, rfl, hall, hoffends, hread⟩)

/-- The first flaw of environments that are counted from `index` on. -/
theorem readEnvironments_cases_from (index : ℕ) (es : List (Option EnvironmentEntry)) :
    (∃ os, Make es os ∧ readEnvironments index es = ⟨os, none⟩) ∨
    ∃ before entry after os, es = before ++ entry :: after ∧ Make before os ∧
      ((∃ flaw, Offends (index + before.length) entry flaw ∧
        readEnvironments index es = ⟨os, some flaw⟩) ∨
      ∃ label registers register rest os' flaw,
        entry = some ⟨some label, some (registers ++ register :: rest)⟩ ∧
        MakeAll label registers os' ∧ register.Offends label flaw ∧
        readEnvironments index es = ⟨os ++ os', some flaw⟩) := by
  induction es generalizing index with
  | nil => exact .inl ⟨[], .nil, rfl⟩
  | cons e es ih =>
    rcases readEnvironment_cases index e with ⟨label, registers, os, rfl, hall, hread⟩ |
      ⟨flaw, hoffends, hread⟩ |
      ⟨label, registers, register, rest, os, flaw, rfl, hall, hoffends, hread⟩
    · -- The first environment has no flaw, so what is found is found among the others.
      have hstep : readEnvironments index (some ⟨some label, some registers⟩ :: es)
          = Reading.append ⟨os, none⟩ (readEnvironments (index + 1) es) := by
        rw [readEnvironments, hread]
      rcases ih (index + 1) with
        ⟨os', hmake, hrest⟩ | ⟨before, entry, after, os', rfl, hmake, hflaw⟩
      · exact .inl ⟨os ++ os', .cons hall hmake, by rw [hstep, hrest]; rfl⟩
      · refine .inr ⟨_ :: before, entry, after, os ++ os', rfl, .cons hall hmake, ?_⟩
        have hlength : index + 1 + before.length = index + (before.length + 1) := by omega
        rw [hlength] at hflaw
        rcases hflaw with ⟨flaw, hoffends, hrest⟩ |
          ⟨label', registers', register, rest, os'', flaw, hentry, hall', hoffends, hrest⟩
        · exact .inl ⟨flaw, hoffends, by rw [hstep, hrest]; rfl⟩
        · refine .inr ⟨label', registers', register, rest, os'', flaw, hentry, hall', hoffends, ?_⟩
          rw [hstep, hrest, List.append_assoc]
          rfl
    · refine .inr ⟨[], e, es, [], rfl, .nil, .inl ⟨flaw, hoffends, ?_⟩⟩
      rw [readEnvironments, hread]
      rfl
    · refine .inr ⟨[], _, es, [], rfl, .nil,
        .inr ⟨label, registers, register, rest, os, flaw, rfl, hall, hoffends, ?_⟩⟩
      rw [readEnvironments, hread]
      rfl

/-- **Observations or a first flaw.** A list of environments makes the observations that are read,
or it has the flaw that is found, behind the observations that are read until then. -/
theorem readEnvironments_cases (es : List (Option EnvironmentEntry)) :
    (∃ os, Make es os ∧ readEnvironments 0 es = ⟨os, none⟩) ∨
    ∃ os flaw, HasFirstFlaw es os.length flaw ∧ readEnvironments 0 es = ⟨os, some flaw⟩ := by
  rcases readEnvironments_cases_from 0 es with hmake | ⟨before, entry, after, os, rfl, hmake, hflaw⟩
  · exact .inl hmake
  · rcases hflaw with ⟨flaw, hoffends, hread⟩ |
      ⟨label, registers, register, rest, os', flaw, rfl, hall, hoffends, hread⟩
    · rw [Nat.zero_add] at hoffends
      exact .inr ⟨os, flaw, .environment hmake hoffends, hread⟩
    · refine .inr ⟨os ++ os', flaw, ?_, hread⟩
      rw [List.length_append]
      exact .register hmake hall hoffends

/-- Environments are read as observations exactly if they make them. -/
theorem readEnvironments_eq_iff {es : List (Option EnvironmentEntry)} {os : List Observation} :
    readEnvironments 0 es = ⟨os, none⟩ ↔ Make es os := by
  constructor
  · intro h
    rcases readEnvironments_cases es with ⟨os', hmake, hread⟩ | ⟨os', flaw, -, hread⟩
    · obtain rfl : os' = os := congrArg Reading.observations (hread.symm.trans h)
      exact hmake
    · exact absurd (congrArg Reading.flaw? (hread.symm.trans h)) (Option.some_ne_none flaw)
  · intro h
    -- From which position the environments are counted matters for flaws only.
    generalize 0 = index
    induction h generalizing index with
    | nil => rfl
    | @cons label registers es os os' hregisters _ ih =>
      have hfirst : readEnvironment index (some ⟨some label, some registers⟩) = ⟨os, none⟩ :=
        readRegisters_eq_iff.2 hregisters
      rw [readEnvironments, hfirst, ih]
      rfl

/-- The environments of two lists are read one after the other, and counted on. -/
theorem readEnvironments_append (index : ℕ) (es es' : List (Option EnvironmentEntry)) :
    readEnvironments index (es ++ es')
      = (readEnvironments index es).append (readEnvironments (index + es.length) es') := by
  induction es generalizing index with
  | nil => rfl
  | cons e es ih =>
    have hcount : index + 1 + es.length = index + (e :: es).length := by
      rw [List.length_cons]
      omega
    rw [List.cons_append, readEnvironments, readEnvironments, ih, hcount, Reading.append_assoc]

/-- The first flaw is found, whatever stands behind it. -/
theorem HasFirstFlaw.exists_readEnvironments {es : List (Option EnvironmentEntry)} {n : ℕ}
    {flaw : Flaw} (h : HasFirstFlaw es n flaw) :
    ∃ os, os.length = n ∧ readEnvironments 0 es = ⟨os, some flaw⟩ := by
  cases h with
  | @environment before after entry os flaw hbefore hoffends =>
    have hentry : readEnvironment before.length entry = .ofFlaw flaw := by
      cases hoffends <;> rfl
    refine ⟨os, rfl, ?_⟩
    rw [readEnvironments_append, readEnvironments_eq_iff.2 hbefore, Nat.zero_add, readEnvironments,
      hentry, @Reading.append_of_flaw (.ofFlaw flaw) flaw rfl]
    exact congrArg (Reading.mk · (some flaw)) (List.append_nil os)
  | @register before after label registersBefore registersAfter entry os os' flaw hbefore hregisters
      hoffends =>
    have hread (index : ℕ) : readEnvironment index
        (some ⟨some label, some (registersBefore ++ entry :: registersAfter)⟩)
          = ⟨os', some flaw⟩ := by
      show readRegisters label (registersBefore ++ entry :: registersAfter) = _
      rw [readRegisters_append, readRegisters_eq_iff.2 hregisters, readRegisters,
        RegisterEntry.read_eq_ofFlaw_iff.2 hoffends,
        @Reading.append_of_flaw (.ofFlaw flaw) flaw rfl]
      exact congrArg (Reading.mk · (some flaw)) (List.append_nil os')
    refine ⟨os ++ os', List.length_append, ?_⟩
    rw [readEnvironments_append, readEnvironments_eq_iff.2 hbefore, readEnvironments, hread]
    rfl

end RegisterTables.Catalogue
