import RegisterTables.Catalogue.Format
import RegisterTables.Observation
import RegisterTables.Text.Quoted

/-!
# The outline of a catalogue

What a catalogue says, whatever its format: a list of environments, each with a label and a list of
register entries, each with a name and fields. A part of the wrong shape has its place in the
outline too. `Outline.read` makes observations of the entries, in order, and stops at the first
flaw.
-/

namespace RegisterTables.Catalogue

/-- The value of a member of a register entry. -/
inductive Content where
  /-- A text in quotes. -/
  | string (text : String)
  /-- A number or a truth value, by its text. -/
  | literal (text : String)
  /-- Something with parts of its own. -/
  | compound
deriving DecidableEq, Repr

namespace Content

/-- The text of a value without parts. -/
def text? : Content → Option String
  | string text => some text
  | literal text => some text
  | compound => none

/-- The text of a value in quotes. -/
def string? : Content → Option String
  | string text => some text
  | _ => none

theorem string?_eq_some_iff {content : Content} {text : String} :
    content.string? = some text ↔ content = .string text := by
  cases content <;> simp [string?]

end Content

/-- An entry in the list of registers: its members in the order in which they were written, or
nothing if it has none to have. The names of the members are pairwise distinct. -/
abbrev RegisterEntry := Option (List (String × Content))

/-- An entry in the list of environments. -/
structure EnvironmentEntry where
  /-- The label, if there is one and it is a text. -/
  label? : Option String
  /-- The list of registers; nothing stands for something else in its place. -/
  registers? : Option (List RegisterEntry)
deriving DecidableEq, Repr

/-- What a catalogue says. Nothing stands for something else than a list of environments, and
likewise for something else than an environment. -/
abbrev Outline := Option (List (Option EnvironmentEntry))

/-! ### Flaws -/

/-- Why a part of a catalogue is not what should be there. -/
inductive Flaw where
  /-- Something else stands in the place of the list of environments. -/
  | environmentsNotList
  /-- Something else stands in the place of an environment. -/
  | environmentNotTable (index : Nat)
  /-- An environment has no label that is a text. -/
  | environmentUnlabelled (index : Nat)
  /-- Something else stands in the place of the list of registers. -/
  | registersNotList (label : String)
  /-- Something else stands in the place of a register. -/
  | registerNotTable (label : String)
  /-- A register has no name that is a text. -/
  | registerUnnamed (label : String)
  /-- The value of a field has parts of its own. -/
  | fieldNotScalar (field register label : String)
deriving DecidableEq, Repr

/-- The wording of a flaw in a catalogue of the given format. -/
def Flaw.reason (format : Format) : Flaw → String
  | environmentsNotList => "`" ++ format.environmentsKey ++ "` must be an array of tables"
  | environmentNotTable i => s!"environment #{i} is not a {format.tableWord}"
  | environmentUnlabelled i => s!"environment #{i} has no `{format.labelKey}`"
  | registersNotList label =>
    "`" ++ format.registersKey ++ s!"` of {Text.quoted label} is not an array"
  | registerNotTable label =>
    s!"register entry of {Text.quoted label} is not {article} {format.tableWord}"
  | registerUnnamed label => s!"register entry of {Text.quoted label} has no `{nameKey}`"
  | fieldNotScalar field register label =>
    "field `" ++ field ++ s!"` of {register} in {Text.quoted label} is not a scalar"
where
  /-- The article in front of the word for a list of named values. -/
  article : String :=
    match format with
    | .toml => "a"
    | .json => "an"

/-! ### Reading -/

/-- The observations made of the parts in front of the first flaw, and the flaw if there is one. -/
structure Reading where
  /-- The observations, in order. -/
  observations : List Observation
  /-- The first flaw. -/
  flaw? : Option Flaw
deriving DecidableEq, Repr

namespace Reading

/-- A reading followed by another one, which counts only where the first has no flaw. -/
def append (r s : Reading) : Reading :=
  match r.flaw? with
  | some flaw => ⟨r.observations, some flaw⟩
  | none => ⟨r.observations ++ s.observations, s.flaw?⟩

/-- A flaw in front of anything else. -/
def ofFlaw (flaw : Flaw) : Reading :=
  ⟨[], some flaw⟩

/-- An observation without a flaw. -/
def ofObservation (o : Observation) : Reading :=
  ⟨[o], none⟩

/-- A reading of nothing. -/
def empty : Reading :=
  ⟨[], none⟩

@[simp] theorem empty_append (r : Reading) : empty.append r = r := rfl

@[simp] theorem append_empty (r : Reading) : r.append empty = r := by
  obtain ⟨observations, flaw?⟩ := r
  cases flaw? <;> simp [append, empty]

theorem append_assoc (r s t : Reading) : (r.append s).append t = r.append (s.append t) := by
  obtain ⟨_, r'⟩ := r
  obtain ⟨_, s'⟩ := s
  cases r' <;> cases s' <;> simp [append]

/-- A reading with a flaw hides all that follows it. -/
theorem append_of_flaw {r : Reading} {flaw : Flaw} (h : r.flaw? = some flaw) (s : Reading) :
    r.append s = r := by
  obtain ⟨_, _⟩ := r
  simp_all [append]

end Reading

/-- The fields among the members of the entry of a register, or the flaw of the first one that has
parts of its own. The name is no field. -/
def fields (label register : String) :
    List (String × Content) → Except Flaw (List (String × String))
  | [] => .ok []
  | (key, content) :: members =>
    if key = nameKey then fields label register members
    else
      match content.text? with
      | none => .error (.fieldNotScalar key register label)
      | some text => do return (key, text) :: (← fields label register members)

/-- Makes an observation of the entry of a register. -/
def RegisterEntry.read (label : String) : RegisterEntry → Reading
  | none => .ofFlaw (.registerNotTable label)
  | some members =>
    match (members.lookup nameKey).bind Content.string? with
    | none => .ofFlaw (.registerUnnamed label)
    | some register =>
      match fields label register members with
      | .error flaw => .ofFlaw flaw
      | .ok entries => .ofObservation ⟨label, register, ⟨entries⟩⟩

/-- Makes observations of the entries of registers. -/
def readRegisters (label : String) : List RegisterEntry → Reading
  | [] => .empty
  | entry :: entries => (entry.read label).append (readRegisters label entries)

/-- Makes observations of the entry of an environment, which is the one at position `index`. -/
def readEnvironment (index : Nat) : Option EnvironmentEntry → Reading
  | none => .ofFlaw (.environmentNotTable index)
  | some entry =>
    match entry.label? with
    | none => .ofFlaw (.environmentUnlabelled index)
    | some label =>
      match entry.registers? with
      | none => .ofFlaw (.registersNotList label)
      | some registers => readRegisters label registers

/-- Makes observations of the entries of environments, which stand from position `index` on. -/
def readEnvironments (index : Nat) : List (Option EnvironmentEntry) → Reading
  | [] => .empty
  | entry :: entries => (readEnvironment index entry).append (readEnvironments (index + 1) entries)

/-- Makes observations of a catalogue. -/
def Outline.read : Outline → Reading
  | none => .ofFlaw .environmentsNotList
  | some environments => readEnvironments 0 environments

end RegisterTables.Catalogue
