import RegisterTables.Proofs.Catalogue.Flaws
import RegisterTables.Proofs.Catalogue.JsonRoundTrip
import RegisterTables.Proofs.Catalogue.TomlRoundTrip
import RegisterTables.Proofs.Failure
import RegisterTables.Proofs.Toml.Inline

/-!
# Catalogues apart from their format

A draft is what a catalogue says before it is written down: environments, of which some may lack a
label, each with a list of trees. A tree that is no object, has no name, or has a list or an object
for a field, is a flaw of the catalogue, and may stand in a draft all the same.

The same draft may be written in either format, and in many ways in each. `Draft.IsTomlForm` and
`Draft.IsJsonForm` say which texts it is written in. Whichever of them is read, its outline is that
of the draft (`Draft.outline_of_isTomlForm`, `Draft.outline_of_isJsonForm`), except that JSON has a
limit to how deep a register may be nested.
-/

namespace RegisterTables.Catalogue

open Json (Expr Tree TextUnit)

/-! ### Drafts -/

/-- An environment with the entries of its registers, whatever they are. -/
structure EnvironmentDraft where
  /-- The label, if there is one. -/
  label? : Option String
  /-- The entries of the registers, in order. -/
  registers : List Tree
  /-- Integers have 64 bits with sign, and names of an object are pairwise distinct. -/
  isProper : Tree.ItemsProper registers

/-- The environments of a catalogue, in order. -/
abbrev Draft := List EnvironmentDraft

/-- A tree as the content of a member. -/
def contentOfTree : Tree → Content
  | .string s => .string s
  | .bool b => .literal (toString b)
  | .integer i => .literal (toString i)
  | .array _ => .compound
  | .object _ => .compound

/-- A tree as the entry of a register. -/
def registerOfTree : Tree → RegisterEntry
  | .object members => some (members.map fun m => (m.1, contentOfTree m.2))
  | _ => none

/-- The entry of an environment in an outline. -/
def EnvironmentDraft.entry (e : EnvironmentDraft) : EnvironmentEntry :=
  ⟨e.label?, some (e.registers.map registerOfTree)⟩

/-- The entries of the environments in an outline. -/
def Draft.entries (c : Draft) : List (Option EnvironmentEntry) :=
  c.map fun e => some e.entry

/-- No register is nested deeper than JSON allows: 127 lists and objects may lie within each other,
and four of them are around a register. -/
def Draft.IsShallow (c : Draft) : Prop :=
  ∀ e ∈ c, ∀ v ∈ e.registers, v.depth ≤ 123

/-! ### Forms in TOML -/

/-- A value shows an environment: a table with the label, if there is one, and with the registers,
which may be missing if there are none. -/
def EnvironmentDraft.IsTomlForm (e : EnvironmentDraft) (w : Toml.Value) : Prop :=
  ∃ t : Toml.Table, w = .table t ∧ t.get? "name" = e.label?.map .string ∧
    (e.registers = [] ∧ t.get? "register" = none ∨
      ∃ ws, t.get? "register" = some (.array ws) ∧ Toml.ItemsShownBy e.registers ws)

/-- A text in TOML shows a draft: it describes a table with the environments, which may be missing
if there are none. -/
def Draft.IsTomlForm (c : Draft) (text : String) : Prop :=
  ∃ t, Toml.Table.parse text = .ok t ∧
    (c = [] ∧ t.get? "environment" = none ∨
      ∃ ws, t.get? "environment" = some (.array ws) ∧
        List.Forall₂ EnvironmentDraft.IsTomlForm c ws)

/-- A value that shows a tree has its content. -/
theorem contentOfToml_of_isShownBy {v : Tree} {w : Toml.Value} (h : Toml.IsShownBy v w) :
    contentOfToml w = contentOfTree v := by
  match v with
  | .string s =>
    obtain rfl := h
    rfl
  | .bool b =>
    obtain rfl := h
    rfl
  | .integer i =>
    obtain rfl := h
    rfl
  | .array items =>
    obtain ⟨ws, rfl, -⟩ := h
    rfl
  | .object members =>
    obtain ⟨t, written, rfl, -⟩ := h
    rfl

theorem map_contentOfToml_of_membersShownBy {members : List (String × Tree)} {t : Toml.Table}
    (h : Toml.MembersShownBy members t) :
    (t.map fun p => (p.1.name, contentOfToml p.2))
      = members.map fun m => (m.1, contentOfTree m.2) := by
  induction members generalizing t with
  | nil =>
    obtain rfl := h
    rfl
  | cons m members ih =>
    obtain ⟨name, v⟩ := m
    obtain ⟨key, w, t', rfl, rfl, hv, hmembers⟩ := h
    rw [List.map_cons, List.map_cons, ih hmembers, contentOfToml_of_isShownBy hv]

/-- A value that shows a tree makes its entry. -/
theorem registerOfToml_of_isShownBy {v : Tree} {w : Toml.Value} (h : Toml.IsShownBy v w) :
    registerOfToml w = registerOfTree v := by
  match v with
  | .string s =>
    obtain rfl := h
    rfl
  | .bool b =>
    obtain rfl := h
    rfl
  | .integer i =>
    obtain rfl := h
    rfl
  | .array items =>
    obtain ⟨ws, rfl, -⟩ := h
    rfl
  | .object members =>
    obtain ⟨t, written, rfl, hperm, hascending, hmembers⟩ := h
    rw [registerOfToml, writtenOrder_eq hperm hascending]
    exact congrArg some (map_contentOfToml_of_membersShownBy hmembers)

theorem map_registerOfToml_of_itemsShownBy {items : List Tree} {ws : List Toml.Value}
    (h : Toml.ItemsShownBy items ws) : ws.map registerOfToml = items.map registerOfTree := by
  induction items generalizing ws with
  | nil =>
    obtain rfl := h
    rfl
  | cons v items ih =>
    obtain ⟨w, ws', rfl, hv, hitems⟩ := h
    rw [List.map_cons, List.map_cons, ih hitems, registerOfToml_of_isShownBy hv]

/-- A value that shows an environment makes its entry. -/
theorem EnvironmentDraft.environmentOfToml_of_isTomlForm {e : EnvironmentDraft} {w : Toml.Value}
    (h : e.IsTomlForm w) : environmentOfToml w = some e.entry := by
  obtain ⟨t, rfl, hlabel, hregisters⟩ := h
  have hlabel? : ((t.get? Format.toml.labelKey).bind fun v => (contentOfToml v).string?)
      = e.label? := by
    rw [Format.labelKey, hlabel]
    cases e.label? <;> rfl
  have hregisters? : (arrayOfToml t Format.toml.registersKey).map (·.map registerOfToml)
      = some (e.registers.map registerOfTree) := by
    rw [arrayOfToml, Format.registersKey]
    rcases hregisters with ⟨hnil, hnone⟩ | ⟨ws, harray, hshown⟩
    · rw [hnil, hnone]
      rfl
    · rw [harray]
      exact congrArg some (map_registerOfToml_of_itemsShownBy hshown)
  rw [environmentOfToml, hlabel?, hregisters?, entry]

theorem map_environmentOfToml_of_isTomlForm {c : Draft} {ws : List Toml.Value}
    (h : List.Forall₂ EnvironmentDraft.IsTomlForm c ws) : ws.map environmentOfToml = c.entries := by
  induction h with
  | nil => rfl
  | @cons e w c ws hform _ ih =>
    rw [List.map_cons, ih, EnvironmentDraft.environmentOfToml_of_isTomlForm hform]
    rfl

/-- **The outline of a text in TOML is that of the draft.** -/
theorem Draft.outline_of_isTomlForm {c : Draft} {text : String} (h : c.IsTomlForm text) :
    outline text .toml = .ok (some c.entries) := by
  obtain ⟨t, hparse, henvironments⟩ := h
  have houtline : Outline.ofToml t = some c.entries := by
    rw [Outline.ofToml, arrayOfToml, Format.environmentsKey]
    rcases henvironments with ⟨rfl, hnone⟩ | ⟨ws, harray, hforms⟩
    · rw [hnone]
      rfl
    · rw [harray]
      exact congrArg some (map_environmentOfToml_of_isTomlForm hforms)
  rw [outline, hparse]
  exact congrArg _ houtline

/-! ### Forms in JSON -/

/-- The members of an object by their names. -/
def AreNamed (l : List (List TextUnit × Expr)) (named : List (String × Expr)) : Prop :=
  List.Forall₂ (fun m n => Json.text? m.1 = some n.1 ∧ m.2 = n.2) l named

/-- What an object gives for a name, however often it does. -/
def given (named : List (String × Expr)) (name : String) : List Expr :=
  (named.filter (·.1 = name)).map Prod.snd

/-- An expression shows a label, if there is one; otherwise it may be missing or null. -/
def IsLabelForm (label? : Option String) (es : List Expr) : Prop :=
  match label? with
  | some label => ∃ units, es = [.string units] ∧ Json.text? units = some label
  | none => es = [] ∨ es = [.null]

/-- An expression shows an environment: an object with the label and with the registers, which may
be missing if there are none. -/
def EnvironmentDraft.IsJsonForm (e : EnvironmentDraft) (x : Expr) : Prop :=
  ∃ l named, x = .object l ∧ AreNamed l named ∧ IsLabelForm e.label? (given named "env") ∧
    (e.registers = [] ∧ given named "registers" = [] ∨
      ∃ es, given named "registers" = [.array es] ∧ Tree.ItemsShownBy e.registers es)

/-- A text in JSON shows a draft: an object with the environments, which may be missing if there are
none. -/
def Draft.IsJsonForm (c : Draft) (text : String) : Prop :=
  ∃ l named, Expr.parse? text = some (.object l) ∧ AreNamed l named ∧
    (c = [] ∧ given named "environments" = [] ∨
      ∃ es, given named "environments" = [.array es] ∧
        List.Forall₂ EnvironmentDraft.IsJsonForm c es)

/-- The members of an object are named exactly if all their names stand for something. -/
theorem namedMembers?_eq_some_iff {l : List (List TextUnit × Expr)}
    {named : List (String × Expr)} : namedMembers? l = some named ↔ AreNamed l named := by
  have hmember (m : List TextUnit × Expr) (n : String × Expr) :
      (Json.text? m.1).bind (fun name => some (name, m.2)) = some n
        ↔ Json.text? m.1 = some n.1 ∧ m.2 = n.2 := by
    obtain ⟨name, e⟩ := n
    cases Json.text? m.1 <;> simp
  rw [namedMembers?, AreNamed, mapM_eq_some_iff]
  exact iff_of_eq (congrArg (List.Forall₂ · l named)
    (funext fun m => funext fun n => propext (hmember m n)))

/-- The values of some names are picked of an object exactly if each is given at most once. -/
theorem pick?_eq_some_iff {names : List String} {named : List (String × Expr)}
    {picked : List (Option Expr)} :
    pick? names named = some picked ↔
      List.Forall₂ (fun name e? => given named name = Option.toList e?) names picked := by
  rw [pick?, mapM_eq_some_iff]
  refine iff_of_eq (congrArg (List.Forall₂ · names picked) ?_)
  funext name e?
  unfold given
  -- Under a name nothing or one expression is found, or else it is given more than once.
  generalize named.filter (·.1 = name) = found
  match found, e? with
  | [], none => simp
  | [], some e' => simp
  | [(_, e)], none => simp
  | [(_, e)], some e' => simp
  | _ :: _ :: _, none => simp
  | _ :: _ :: _, some e' => simp

/-- What shows a label is read as the label. -/
theorem exists_of_isLabelForm {label? : Option String} {es : List Expr}
    (h : IsLabelForm label? es) :
    ∃ e?, es = Option.toList e? ∧ labelOfJson? e? = some label? := by
  cases label? with
  | none =>
    rcases h with rfl | rfl
    · exact ⟨none, rfl, rfl⟩
    · exact ⟨some .null, rfl, rfl⟩
  | some label =>
    obtain ⟨units, rfl, hunits⟩ := h
    refine ⟨some (.string units), rfl, ?_⟩
    rw [labelOfJson?, hunits]
    rfl

theorem contentOfJson_value (v : Tree) : contentOfJson v.value = contentOfTree v := by
  cases v <;> rfl

theorem map_contentOfJson_membersValue (members : List (String × Tree)) :
    ((Tree.membersValue members).map fun m => (m.1, contentOfJson m.2))
      = members.map fun m => (m.1, contentOfTree m.2) := by
  induction members with
  | nil => rfl
  | cons m members ih =>
    obtain ⟨name, v⟩ := m
    rw [Tree.membersValue, List.map_cons, List.map_cons, ih, contentOfJson_value]

theorem registerOfJson_value (v : Tree) : registerOfJson v.value = registerOfTree v := by
  cases v with
  | object members =>
    rw [Tree.value, registerOfJson, map_contentOfJson_membersValue]
    rfl
  | _ => rfl

theorem map_registerOfJson_itemsValue (items : List Tree) :
    (Tree.itemsValue items).map registerOfJson = items.map registerOfTree := by
  induction items with
  | nil => rfl
  | cons v items ih =>
    rw [Tree.itemsValue, List.map_cons, List.map_cons, ih, registerOfJson_value]

/-- An expression that shows an environment makes its entry, unless a register is nested too deep.
-/
theorem EnvironmentDraft.environmentOfJson?_of_isJsonForm {e : EnvironmentDraft} {x : Expr}
    (h : e.IsJsonForm x) :
    environmentOfJson? x
      = if Tree.itemsDepth e.registers ≤ entryDepth then some e.entry else none := by
  obtain ⟨l, named, rfl, hnamed, hlabel, hregisters⟩ := h
  obtain ⟨label?, hgivenLabel, hlabel⟩ :
      ∃ x?, given named "env" = Option.toList x? ∧ labelOfJson? x? = some e.label? :=
    exists_of_isLabelForm hlabel
  obtain ⟨registers?, es, hgivenRegisters, hitems, hshown⟩ :
      ∃ x? es, given named "registers" = Option.toList x? ∧ items? x? = some es ∧
        Tree.ItemsShownBy e.registers es := by
    rcases hregisters with ⟨hnil, hnone⟩ | ⟨es, hes, hshown⟩
    · refine ⟨none, [], hnone, rfl, ?_⟩
      rw [hnil]
      rfl
    · exact ⟨some (.array es), es, hes, rfl, hshown⟩
  have hpick : pick? [Format.json.labelKey, Format.json.registersKey] named
      = some [label?, registers?] :=
    pick?_eq_some_iff.2 (.cons hgivenLabel (.cons hgivenRegisters .nil))
  have hvalues := Tree.ofItems?_of_itemsShownBy e.registers e.isProper hshown entryDepth
  rw [environmentOfJson?, recordMembers?, namedMembers?_eq_some_iff.2 hnamed]
  simp only [bind, Option.bind, hpick, hlabel, hitems, hvalues]
  by_cases hle : Tree.itemsDepth e.registers ≤ entryDepth
  · rw [if_pos hle, if_pos hle]
    exact congrArg some (congrArg (EnvironmentEntry.mk e.label? <| some ·)
      (map_registerOfJson_itemsValue e.registers))
  · rw [if_neg hle, if_neg hle]

/-- Expressions that show environments make their entries, unless a register is nested too deep. -/
theorem mapM_environmentOfJson?_of_isJsonForm {c : Draft} {es : List Expr}
    (h : List.Forall₂ EnvironmentDraft.IsJsonForm c es) :
    (c.IsShallow → es.mapM environmentOfJson? = some (c.map EnvironmentDraft.entry)) ∧
      (¬c.IsShallow → es.mapM environmentOfJson? = none) := by
  induction h with
  | nil => exact ⟨fun _ => rfl, fun hdeep => absurd (List.forall_mem_nil _) hdeep⟩
  | @cons e x c es hform _ ih =>
    have hentry := EnvironmentDraft.environmentOfJson?_of_isJsonForm hform
    have hshallow : Draft.IsShallow (e :: c) ↔
        Tree.itemsDepth e.registers ≤ entryDepth ∧ Draft.IsShallow c := by
      rw [Draft.IsShallow, List.forall_mem_cons, Tree.itemsDepth_le_iff]
      rfl
    rw [hshallow, List.mapM_cons, hentry]
    constructor
    · rintro ⟨hhead, htail⟩
      rw [if_pos hhead, ih.1 htail]
      rfl
    · intro hdeep
      by_cases hhead : Tree.itemsDepth e.registers ≤ entryDepth
      · rw [if_pos hhead, ih.2 fun htail => hdeep ⟨hhead, htail⟩]
        rfl
      · rw [if_neg hhead]
        rfl

/-- **The outline of a text in JSON is that of the draft**, unless a register is nested too deep. -/
theorem Draft.outline_of_isJsonForm {c : Draft} {text : String} (h : c.IsJsonForm text) :
    (c.IsShallow → outline text .json = .ok (some c.entries)) ∧
      (¬c.IsShallow → outline text .json = .error "not a catalogue in JSON") := by
  obtain ⟨l, named, hparse, hnamed, henvironments⟩ := h
  obtain ⟨x?, es, hgiven, hitems, hforms⟩ :
      ∃ x? es, given named "environments" = Option.toList x? ∧ items? x? = some es ∧
        List.Forall₂ EnvironmentDraft.IsJsonForm c es := by
    rcases henvironments with ⟨rfl, hnone⟩ | ⟨es, hes, hforms⟩
    · exact ⟨none, [], hnone, rfl, .nil⟩
    · exact ⟨some (.array es), es, hes, rfl, hforms⟩
  have hpick : pick? [Format.json.environmentsKey] named = some [x?] :=
    pick?_eq_some_iff.2 (.cons hgiven .nil)
  have houtline : Outline.ofJson? (.object l)
      = (es.mapM environmentOfJson?).map fun entries => some (entries.map some) := by
    rw [Outline.ofJson?, recordMembers?, namedMembers?_eq_some_iff.2 hnamed]
    simp only [bind, Option.bind, hpick, hitems]
    cases es.mapM environmentOfJson? <;> rfl
  obtain ⟨hshallow, hdeep⟩ := mapM_environmentOfJson?_of_isJsonForm hforms
  rw [outline, hparse, Option.bind_some, houtline]
  constructor
  · intro h
    rw [hshallow h, Option.map_some, List.map_map]
    rfl
  · intro h
    rw [hdeep h, Option.map_none]

end RegisterTables.Catalogue
