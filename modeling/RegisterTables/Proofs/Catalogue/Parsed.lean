import RegisterTables.Proofs.Catalogue.JsonShape
import RegisterTables.Proofs.Toml.Entries

/-!
# Parsed catalogues

Between a text and its observations stands the parsed catalogue: a list of environments with the
entries of their registers, held in the way of the format. In TOML any of these may be any value; in
JSON an environment has been decoded already, and only the entries of its registers may be any
values.

Here it is said for both formats alike what a parsed environment consists of and what may be done to
it: to put other entries in the place of its registers (`ParsedEnvironment.withRegisters`), and to
change the values behind a field that has parts of its own (`ParsedRegister.AgreesUpToField`). The
lemmas tell what that does to the outline, which is all that is read. `ParsedRegister.IsSound` and
`ParsedEnvironment.IsSound` say what a reader hopes to find.
-/

namespace RegisterTables.Catalogue

open Json (Expr)

/-! ### Environments and registers -/

/-- An environment of a catalogue in JSON, as it is decoded. -/
structure JsonEnvironment where
  /-- The label, if there is one. -/
  label? : Option String
  /-- The entries of the registers, which may be any values. -/
  registers : List Json.Value

/-- An environment of a parsed catalogue. -/
abbrev ParsedEnvironment : Format → Type
  | .toml => Toml.Value
  | .json => JsonEnvironment

/-- The entry of a register in a parsed catalogue. -/
abbrev ParsedRegister : Format → Type
  | .toml => Toml.Value
  | .json => Json.Value

/-- The outline of the entry of a register. -/
def ParsedRegister.entry : {format : Format} → ParsedRegister format → RegisterEntry
  | .toml, r => registerOfToml r
  | .json, r => registerOfJson r

namespace ParsedEnvironment

/-- The outline of an environment. -/
def entry : {format : Format} → ParsedEnvironment format → Option EnvironmentEntry
  | .toml, e => environmentOfToml e
  | .json, ⟨label?, registers⟩ => some ⟨label?, some (registers.map registerOfJson)⟩

/-- The array of registers in a value; there are none without it. -/
def registersOfToml : Toml.Value → List Toml.Value
  | .table t =>
    match Toml.Table.get? t Format.toml.registersKey with
    | some (.array items) => items
    | _ => []
  | _ => []

/-- The entries of the registers of an environment. -/
def registers : {format : Format} → ParsedEnvironment format → List (ParsedRegister format)
  | .toml, e => registersOfToml e
  | .json, ⟨_, registers⟩ => registers

/-- A value with another array of registers, if it has one. -/
def setRegistersOfToml (rs : List Toml.Value) : Toml.Value → Toml.Value
  | .table t =>
    .table (t.map fun p => if p.1.name = Format.toml.registersKey then (p.1, .array rs) else p)
  | v => v

/-- The environment with other entries in the place of its registers. -/
def withRegisters : {format : Format} → ParsedEnvironment format → List (ParsedRegister format) →
    ParsedEnvironment format
  | .toml, e, rs => setRegistersOfToml rs e
  | .json, ⟨label?, _⟩, rs => ⟨label?, rs⟩

end ParsedEnvironment

/-- How many entries of registers there are in all environments. -/
def registerCount {format : Format} (es : List (ParsedEnvironment format)) : ℕ :=
  (es.flatMap ParsedEnvironment.registers).length

/-- The observations of a parsed catalogue, or what is wrong with it. -/
def readParsed {format : Format} (es : List (ParsedEnvironment format)) :
    Except Error (List Observation) :=
  Outline.observations (some (es.map ParsedEnvironment.entry)) format

/-! ### Parsing -/

/-- An environment is what an expression is decoded to. -/
def JsonEnvironment.IsDecodedFrom (x : Expr) (e : JsonEnvironment) : Prop :=
  ∃ label? registers? xs, IsRecordOf ["env", "registers"] 1 x [label?, registers?] ∧
    labelOfJson? label? = some e.label? ∧ IsListForm registers? xs ∧
    Json.Value.ofItems? entryDepth xs = some e.registers

/-- The environments are those of the catalogue that a text is parsed to. -/
def IsParsedTo (text : String) : {format : Format} → List (ParsedEnvironment format) → Prop
  | .toml, es => ∃ root, Toml.Table.parse text = .ok root ∧
      root.get? "environment" = some (.array es)
  | .json, es => ∃ x environments? xs, Expr.parse? text = some x ∧
      IsRecordOf ["environments"] 0 x [environments?] ∧ IsListForm environments? xs ∧
      List.Forall₂ JsonEnvironment.IsDecodedFrom xs es

/-- Decoded environments have the entries that the expressions do. -/
theorem mapM_environmentOfJson?_of_isDecodedFrom {xs : List Expr} {es : List JsonEnvironment}
    (h : List.Forall₂ JsonEnvironment.IsDecodedFrom xs es) :
    xs.mapM environmentOfJson?
      = some (es.map fun e => ⟨e.label?, some (e.registers.map registerOfJson)⟩) := by
  rw [mapM_eq_some_iff, List.forall₂_map_right_iff]
  refine h.imp fun x e he => ?_
  obtain ⟨label?, registers?, xs, hrecord, hlabel, hlist, hregisters⟩ := he
  exact environmentOfJson?_eq_some_iff.2
    ⟨label?, registers?, xs, _, hrecord, hlabel, hlist, hregisters, rfl⟩

/-- The outline of a text is that of the parsed catalogue. -/
theorem outline_of_isParsedTo {text : String} {format : Format}
    {es : List (ParsedEnvironment format)} (h : IsParsedTo text es) :
    outline text format = .ok (some (es.map ParsedEnvironment.entry)) := by
  cases format with
  | toml =>
    obtain ⟨root, hparse, henvironments⟩ := h
    have hroot : Outline.ofToml root = some (es.map environmentOfToml) := by
      rw [Outline.ofToml, Format.environmentsKey, arrayOfToml_eq_some_iff.2 (.inl henvironments)]
      rfl
    rw [outline, hparse]
    exact congrArg Except.ok hroot
  | json =>
    obtain ⟨x, environments?, xs, hparse, hrecord, hlist, hdecoded⟩ := h
    have hentries := mapM_environmentOfJson?_of_isDecodedFrom hdecoded
    have hx := ofJson?_eq_some_iff.2 ⟨environments?, xs, _, hrecord, hlist, hentries, rfl⟩
    rw [outline, hparse, Option.bind_some, hx, List.map_map]
    rfl

/-- Reading a text comes to reading the parsed catalogue. -/
theorem result_parse_of_isParsedTo {text : String} {format : Format}
    {es : List (ParsedEnvironment format)} (h : IsParsedTo text es) (origin : String) :
    (parse origin text format).result = readParsed es := by
  rw [parse, outline_of_isParsedTo h, readParsed]
  cases hread : Outline.observations (some (es.map ParsedEnvironment.entry)) format <;>
    simp only [hread]

/-! ### Other registers in an environment -/

/-- The registers in the outline of an environment are the entries of its registers. -/
theorem ParsedEnvironment.map_entry_registers {format : Format} {e : ParsedEnvironment format}
    {label? : Option String} {entries : List RegisterEntry}
    (h : e.entry = some ⟨label?, some entries⟩) :
    entries = e.registers.map ParsedRegister.entry := by
  cases format with
  | json =>
    cases h
    rfl
  | toml =>
    cases e with
    | table t =>
      have hentries := (EnvironmentEntry.mk.inj (Option.some.inj h)).2
      obtain ⟨items, hitems, rfl⟩ := Option.map_eq_some_iff.1 hentries
      rcases arrayOfToml_eq_some_iff.1 hitems with hget | ⟨hget, rfl⟩ <;>
      · simp only [registers, registersOfToml, hget]
        rfl
    | _ => cases h

/-- What stands under a name in a table whose values were changed and whose keys were not. -/
theorem get?_map {f : Toml.Key × Toml.Value → Toml.Key × Toml.Value} (hf : ∀ p, (f p).1 = p.1)
    (t : Toml.Table) (name : String) :
    Toml.Table.get? (t.map f) name = (t.find? (·.1.name = name)).map fun p => (f p).2 := by
  rw [Toml.Table.get?, List.find?_map, Option.map_map]
  simp only [Function.comp_def, hf]

/-- Only the value under the name is set, if there is one. -/
theorem get?_map_set (name : String) (v : Toml.Value) (t : Toml.Table) (other : String) :
    Toml.Table.get? (t.map fun p => if p.1.name = name then (p.1, v) else p) other
      = if other = name then (t.get? other).map fun _ => v else t.get? other := by
  rw [get?_map fun p => by split_ifs <;> rfl]
  by_cases hname : other = name
  · rw [if_pos hname, Toml.Table.get?, Option.map_map]
    refine Option.map_congr fun p hp => ?_
    have hfound : p.1.name = other := by simpa using List.find?_some hp
    rw [if_pos (hfound.trans hname)]
    rfl
  · rw [if_neg hname, Toml.Table.get?]
    refine Option.map_congr fun p hp => ?_
    have hfound : p.1.name = other := by simpa using List.find?_some hp
    rw [if_neg fun heq => hname (hfound.symm.trans heq)]

/-- With other registers the outline of an environment has their entries. -/
theorem ParsedEnvironment.entry_withRegisters {format : Format} {e : ParsedEnvironment format}
    {label? : Option String} {registers? : Option (List RegisterEntry)}
    (h : e.entry = some ⟨label?, registers?⟩) (hne : e.registers ≠ [])
    (rs : List (ParsedRegister format)) :
    (e.withRegisters rs).entry = some ⟨label?, some (rs.map ParsedRegister.entry)⟩ := by
  cases format with
  | json =>
    cases h
    rfl
  | toml =>
    cases e with
    | table t =>
      obtain ⟨hlabel, -⟩ := EnvironmentEntry.mk.inj (Option.some.inj h)
      -- An environment with registers has something that they can be put in the place of.
      have hregisters : (Toml.Table.get? t Format.toml.registersKey).isSome := by
        rw [Option.isSome_iff_ne_none]
        intro hnone
        refine hne ?_
        simp only [registers, registersOfToml, hnone]
      obtain ⟨v, hv⟩ := Option.isSome_iff_exists.1 hregisters
      show environmentOfToml (setRegistersOfToml rs (.table t)) = _
      have hlabelKey : Format.toml.labelKey ≠ Format.toml.registersKey := by decide
      rw [setRegistersOfToml, environmentOfToml, arrayOfToml, get?_map_set, get?_map_set,
        if_neg hlabelKey, if_pos rfl, hv, ← hlabel]
      rfl
    | _ => cases h

/-! ### Values behind a field -/

/-- Two entries in TOML are the same, or they are the same but for values behind a field with parts
of its own, in the order in which they are written. The name is the same in any case. -/
inductive AgreesInToml : Toml.Value → Toml.Value → Prop where
  | refl (r : Toml.Value) : AgreesInToml r r
  | behind {t : Toml.Table} {key : Toml.Key} {v : Toml.Value} (hmem : (key, v) ∈ t)
      (hkey : key.name ≠ "name") (hv : v.isScalar = false) (value : Toml.Key → Toml.Value) :
      AgreesInToml (.table t) (.table (t.map fun p =>
        if p.1.name = "name" ∨ p.1.place ≤ key.place then p else (p.1, value p.1)))

/-- Two entries in JSON are the same, or they are the same but for values behind a field with parts
of its own or null. The name is the same in any case. -/
inductive AgreesInJson : Json.Value → Json.Value → Prop where
  | refl (r : Json.Value) : AgreesInJson r r
  | behind {before after : List (String × Json.Value)} {key : String} {v : Json.Value}
      (hkey : key ≠ "name") (hv : ∀ text, ¬HasText v text) (value : String → Json.Value) :
      AgreesInJson (.object (before ++ (key, v) :: after))
        (.object (before ++ (key, v) :: after.map fun m =>
          if m.1 = "name" then m else (m.1, value m.1)))

/-- Two entries of registers are the same up to a field that is no scalar, if they are not the same
altogether. -/
def ParsedRegister.AgreesUpToField : {format : Format} → ParsedRegister format →
    ParsedRegister format → Prop
  | .toml, r, r' => AgreesInToml r r'
  | .json, r, r' => AgreesInJson r r'

/-- An entry is read up to the first field that has parts of its own. -/
theorem RegisterEntry.read_append_compound (label : String) {key : String} (hkey : key ≠ nameKey)
    (before : List (String × Content)) {after after' : List (String × Content)}
    (hname : after'.lookup nameKey = after.lookup nameKey) :
    RegisterEntry.read label (some (before ++ (key, .compound) :: after'))
      = RegisterEntry.read label (some (before ++ (key, .compound) :: after)) := by
  have hlookup : (before ++ (key, .compound) :: after').lookup nameKey
      = (before ++ (key, .compound) :: after).lookup nameKey := by
    simp only [List.lookup_append, List.lookup_cons, hname]
  simp only [RegisterEntry.read, hlookup, fields_append_compound label _ hkey before after' after]

/-- The content of a value that is no scalar. -/
theorem contentOfToml_of_isScalar_eq_false {v : Toml.Value} (h : v.isScalar = false) :
    contentOfToml v = .compound := by
  cases v with
  | array _ => rfl
  | table _ => rfl
  | _ => cases h

theorem contentOfJson_of_not_hasText {v : Json.Value} (h : ∀ text, ¬HasText v text) :
    contentOfJson v = .compound := by
  cases v with
  | string text => exact absurd (.string text) (h text)
  | number text => exact absurd (.number text) (h text)
  | bool b => exact absurd (.bool b) (h _)
  | _ => rfl

theorem registerOfToml_table (t : Toml.Table) : registerOfToml (.table t)
    = some ((writtenOrder t).map fun p => (p.1.name, contentOfToml p.2)) := rfl

theorem registerOfJson_object (members : List (String × Json.Value)) :
    registerOfJson (.object members) = some (members.map fun m => (m.1, contentOfJson m.2)) := rfl

/-- What is found under a name depends only on the names and on what has this name. -/
theorem lookup_map_congr {α : Type} {f g : α → String × Content} {l : List α} {name : String}
    (hfst : ∀ a ∈ l, (f a).1 = (g a).1) (hname : ∀ a ∈ l, (g a).1 = name → f a = g a) :
    (l.map f).lookup name = (l.map g).lookup name := by
  induction l with
  | nil => rfl
  | cons a l ih =>
    obtain ⟨hfst, hfsts⟩ := List.forall_mem_cons.1 hfst
    obtain ⟨hname, hnames⟩ := List.forall_mem_cons.1 hname
    rw [List.map_cons, List.map_cons, List.lookup_cons, List.lookup_cons, ih hfsts hnames, hfst]
    cases ha : name == (g a).1 with
    | true => rw [hname (beq_iff_eq.1 ha).symm]
    | false => rfl

/-- The order in which entries are written does not depend on their values. -/
theorem writtenOrder_map {f : Toml.Key × Toml.Value → Toml.Key × Toml.Value}
    (hf : ∀ p, (f p).1 = p.1) (t : Toml.Table) :
    writtenOrder (t.map f) = (writtenOrder t).map f :=
  (List.map_mergeSort fun a _ b _ => by rw [hf, hf]).symm

/-- Entries in TOML that agree are read alike. -/
theorem AgreesInToml.read_eq {r r' : Toml.Value} (h : AgreesInToml r r') (label : String) :
    (registerOfToml r').read label = (registerOfToml r).read label := by
  cases h with
  | refl => rfl
  | @behind t key v hmem hkey hv value =>
    -- What is written before the field and the field itself stay as they are.
    obtain ⟨before, after, hsplit⟩ :=
      List.append_of_mem ((List.mergeSort_perm t fun a b => a.1.place ≤ b.1.place).mem_iff.2 hmem)
    have hwritten : writtenOrder t = before ++ (key, v) :: after := hsplit
    have hbefore : ∀ p ∈ before, p.1.place ≤ key.place := by
      intro p hp
      have hpairwise := pairwise_writtenOrder t
      rw [hwritten, List.pairwise_append] at hpairwise
      exact of_decide_eq_true (hpairwise.2.2 p hp (key, v) List.mem_cons_self)
    have hmap : before.map (fun p => if p.1.name = "name" ∨ p.1.place ≤ key.place then p
        else (p.1, value p.1)) = before := by
      conv_rhs => rw [← List.map_id before]
      exact List.map_congr_left fun p hp => if_pos (.inr (hbefore p hp))
    have hkept : (if key.name = "name" ∨ key.place ≤ key.place then (key, v)
        else (key, value key)) = (key, v) := if_pos (.inr le_rfl)
    rw [registerOfToml_table, registerOfToml_table, writtenOrder_map fun p => by split_ifs <;> rfl,
      hwritten, List.map_append, List.map_append, List.map_append, hmap, List.map_cons,
      List.map_cons, List.map_cons, hkept, List.map_map, contentOfToml_of_isScalar_eq_false hv]
    refine RegisterEntry.read_append_compound label hkey _ (lookup_map_congr ?_ ?_)
    · intro p _
      simp only [Function.comp_apply]
      split_ifs <;> rfl
    · intro p _ (hp : p.1.name = "name")
      simp only [Function.comp_apply]
      rw [if_pos (.inl hp)]

/-- Entries in JSON that agree are read alike. -/
theorem AgreesInJson.read_eq {r r' : Json.Value} (h : AgreesInJson r r') (label : String) :
    (registerOfJson r').read label = (registerOfJson r).read label := by
  cases h with
  | refl => rfl
  | @behind before after key v hkey hv value =>
    rw [registerOfJson_object, registerOfJson_object, List.map_append, List.map_append,
      List.map_cons, List.map_cons, contentOfJson_of_not_hasText hv, List.map_map]
    refine RegisterEntry.read_append_compound label hkey _ (lookup_map_congr ?_ ?_)
    · intro m _
      simp only [Function.comp_apply]
      split_ifs <;> rfl
    · intro m _ (hm : m.1 = "name")
      simp only [Function.comp_apply]
      rw [if_pos hm]

/-- Entries that agree are read alike. -/
theorem ParsedRegister.read_entry_of_agrees {format : Format} {r r' : ParsedRegister format}
    (h : r.AgreesUpToField r') (label : String) : r'.entry.read label = r.entry.read label := by
  cases format with
  | toml => exact AgreesInToml.read_eq h label
  | json => exact AgreesInJson.read_eq h label

/-! ### What should be found -/

/-- A value in TOML is a register: a table with a name that is a string, and otherwise scalars. The
name is the first entry that is called so, in the order in which they are written. -/
def IsRegisterInToml (r : Toml.Value) : Prop :=
  ∃ (t : Toml.Table) (register : String), r = .table t ∧
    (writtenOrder t).get? "name" = some (.string register) ∧
    ∀ p ∈ t, p.1.name ≠ "name" → p.2.isScalar = true

/-- A value in JSON is a register: an object with a name that is a string, and otherwise strings,
numbers and truth values. -/
def IsRegisterInJson (r : Json.Value) : Prop :=
  ∃ members register, r = .object members ∧ members.lookup "name" = some (.string register) ∧
    ∀ m ∈ members, m.1 ≠ "name" → ∃ text, HasText m.2 text

/-- The entry is a register. -/
def ParsedRegister.IsSound : {format : Format} → ParsedRegister format → Prop
  | .toml, r => IsRegisterInToml r
  | .json, r => IsRegisterInJson r

namespace ParsedEnvironment

/-- An environment has a label that is a string, and an array of registers if it has any. -/
def IsProper : {format : Format} → ParsedEnvironment format → Prop
  | .toml, e => ∃ (t : Toml.Table) (label : String), e = .table t ∧
      t.get? "name" = some (.string label) ∧
      (t.get? "register" = none ∨ ∃ rs, t.get? "register" = some (.array rs))
  | .json, ⟨label?, _⟩ => ∃ label, label? = some label

/-- An environment is proper, and all its registers are registers. -/
def IsSound {format : Format} (e : ParsedEnvironment format) : Prop :=
  e.IsProper ∧ ∀ r ∈ e.registers, r.IsSound

end ParsedEnvironment

/-! ### What is proper and what is sound -/

/-- The content of a value is a string exactly if the value is. -/
theorem contentOfToml_eq_string_iff {v : Toml.Value} {text : String} :
    contentOfToml v = .string text ↔ v = .string text := by
  cases v <;> simp [contentOfToml]

/-- An array can be found unless something else stands in its place. -/
theorem exists_arrayOfToml_iff {t : Toml.Table} {name : String} :
    (∃ items, arrayOfToml t name = some items) ↔
      t.get? name = none ∨ ∃ items, t.get? name = some (.array items) := by
  simp only [arrayOfToml_eq_some_iff, exists_or, exists_and_left, exists_eq, and_true]
  exact or_comm

/-- A table makes the outline of an environment with the label and the array that it has. -/
theorem environmentOfToml_table_eq_some_iff {t : Toml.Table} {label : String}
    {entries : List RegisterEntry} :
    environmentOfToml (.table t) = some ⟨some label, some entries⟩ ↔
      t.get? "name" = some (.string label) ∧
        ∃ items, arrayOfToml t "register" = some items ∧ items.map registerOfToml = entries := by
  simp only [environmentOfToml, Format.labelKey, Format.registersKey, Option.some.injEq,
    EnvironmentEntry.mk.injEq, Option.bind_eq_some_iff, Option.map_eq_some_iff,
    Content.string?_eq_some_iff, contentOfToml_eq_string_iff, exists_eq_right]

/-- A proper environment is one whose outline has both a label and registers. -/
theorem ParsedEnvironment.isProper_iff {format : Format} {e : ParsedEnvironment format} :
    e.IsProper ↔ ∃ label entries, e.entry = some ⟨some label, some entries⟩ := by
  cases format with
  | json =>
    obtain ⟨label?, registers⟩ := e
    constructor
    · rintro ⟨label, rfl⟩
      exact ⟨label, _, rfl⟩
    · rintro ⟨label, entries, h⟩
      exact ⟨label, (EnvironmentEntry.mk.inj (Option.some.inj h)).1⟩
  | toml =>
    constructor
    · rintro ⟨t, label, rfl, hlabel, hregisters⟩
      obtain ⟨rs, hrs⟩ := exists_arrayOfToml_iff.2 hregisters
      exact ⟨label, _, environmentOfToml_table_eq_some_iff.2 ⟨hlabel, rs, hrs, rfl⟩⟩
    · rintro ⟨label, entries, h⟩
      cases e with
      | table t =>
        obtain ⟨hlabel, rs, hrs, rfl⟩ := environmentOfToml_table_eq_some_iff.1 h
        exact ⟨t, label, rfl, hlabel, exists_arrayOfToml_iff.1 ⟨rs, hrs⟩⟩
      | _ => cases h

/-- What is found among the members of a table is the content of what stands under the name. -/
theorem lookup_map_contentOfToml (t : Toml.Table) (name : String) :
    (t.map fun p => (p.1.name, contentOfToml p.2)).lookup name
      = (t.get? name).map contentOfToml := by
  induction t with
  | nil => rfl
  | cons p t ih =>
    rw [List.map_cons, List.lookup_cons, ih, Toml.Table.get?_cons]
    by_cases hname : p.1.name = name
    · rw [if_pos hname, beq_iff_eq.2 hname.symm]
      rfl
    · rw [if_neg hname, beq_eq_false_iff_ne.2 (Ne.symm hname)]

/-- The content of a value has a text exactly if the value is a scalar. -/
theorem exists_text?_contentOfToml_iff {v : Toml.Value} :
    (∃ text, (contentOfToml v).text? = some text) ↔ v.isScalar = true := by
  cases v <;> simp [contentOfToml, Content.text?, Toml.Value.isScalar]

/-- A value is a register exactly if its outline makes an observation, whatever the label is. -/
theorem isRegisterInToml_iff {r : Toml.Value} (label : String) :
    IsRegisterInToml r ↔ ∃ o, (registerOfToml r).Makes label o := by
  cases r with
  | table t =>
    rw [registerOfToml_table, RegisterEntry.exists_makes_iff, List.forall_mem_map]
    simp only [lookup_map_contentOfToml, Option.map_eq_some_iff, contentOfToml_eq_string_iff,
      exists_eq_right, exists_text?_contentOfToml_iff]
    have hmem : ∀ p, p ∈ writtenOrder t ↔ p ∈ t := fun p => (List.mergeSort_perm t _).mem_iff
    simp only [hmem]
    constructor
    · rintro ⟨t', register, ht, hname, hfields⟩
      obtain rfl := Toml.Value.table.inj ht
      exact ⟨⟨register, hname⟩, hfields⟩
    · rintro ⟨⟨register, hname⟩, hfields⟩
      exact ⟨t, register, rfl, hname, hfields⟩
  | _ =>
    refine iff_of_false ?_ ?_
    · rintro ⟨t, register, ht, -⟩
      cases ht
    · rintro ⟨o, ho⟩
      cases ho

/-- A value is a register exactly if its outline makes an observation, whatever the label is. -/
theorem isRegisterInJson_iff {r : Json.Value} (label : String) :
    IsRegisterInJson r ↔ ∃ o, (registerOfJson r).Makes label o := by
  cases r with
  | object members =>
    rw [registerOfJson_object, RegisterEntry.exists_makes_iff, List.forall_mem_map]
    simp only [Json.lookup_map, Option.map_eq_some_iff, contentOfJson_eq_string_iff,
      exists_eq_right, text?_contentOfJson_eq_some_iff]
    constructor
    · rintro ⟨members', register, hmembers, hname, hfields⟩
      obtain rfl := Json.Value.object.inj hmembers
      exact ⟨⟨register, hname⟩, hfields⟩
    · rintro ⟨⟨register, hname⟩, hfields⟩
      exact ⟨members, register, rfl, hname, hfields⟩
  | _ =>
    refine iff_of_false ?_ ?_
    · rintro ⟨members, register, hmembers, -⟩
      cases hmembers
    · rintro ⟨o, ho⟩
      cases ho

/-- An entry is a register exactly if its outline makes an observation, whatever the label is. -/
theorem ParsedRegister.isSound_iff {format : Format} {r : ParsedRegister format} (label : String) :
    r.IsSound ↔ ∃ o, r.entry.Makes label o := by
  cases format with
  | toml => exact isRegisterInToml_iff label
  | json => exact isRegisterInJson_iff label

end RegisterTables.Catalogue
