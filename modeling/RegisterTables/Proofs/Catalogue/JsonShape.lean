import RegisterTables.Proofs.Catalogue.Drafts

/-!
# The shape of a catalogue in JSON

A catalogue in JSON should be an object with a list of environments, each an object with a label and
a list of registers, each an object with a name and otherwise strings, numbers and truth values.
`IsCatalogue` is this shape with the observations of its registers, for a given reading of the
places of the document and of its environments.

The reader is laxer in these places: an array may stand there for an object, its items taken for the
members in their order. `parse_json_eq_ok_iff` says which texts are catalogues. Apart from those
arrays, they are the texts of the intended shape.
-/

namespace RegisterTables.Catalogue

open Json (Expr)

/-! ### Records -/

/-- An expression gives a value for each of the given names, or none where that is allowed; the
number is how many of the names need a place in a list without names. -/
abbrev RecordForm := List String → ℕ → Expr → List (Option Expr) → Prop

/-- An object gives what stands under the names, each of which it has at most once. -/
def IsObjectOf : RecordForm := fun names _ x values =>
  ∃ l named, x = .object l ∧ AreNamed l named ∧
    List.Forall₂ (fun name e? => given named name = Option.toList e?) names values

/-- An array gives its items for the first of the names, and nothing for the others. -/
def IsArrayOf : RecordForm := fun names least x values =>
  ∃ items missing, x = .array items ∧ least ≤ items.length ∧
    values = items.map some ++ List.replicate missing none ∧ values.length = names.length

/-- An object or an array gives values. -/
def IsRecordOf : RecordForm := fun names least x values =>
  IsObjectOf names least x values ∨ IsArrayOf names least x values

/-- The members of a record are those that it gives. -/
theorem recordMembers?_eq_some_iff {names : List String} {least : ℕ} {x : Expr}
    {values : List (Option Expr)} :
    recordMembers? names least x = some values ↔ IsRecordOf names least x values := by
  cases x with
  | object l =>
    have harray : ¬IsArrayOf names least (.object l) values := by
      rintro ⟨items, missing, hx, -⟩
      cases hx
    rw [IsRecordOf, or_iff_left harray, recordMembers?]
    constructor
    · intro h
      obtain ⟨named, hnamed, hpick⟩ := Option.bind_eq_some_iff.1 h
      exact ⟨l, named, rfl, namedMembers?_eq_some_iff.1 hnamed, pick?_eq_some_iff.1 hpick⟩
    · rintro ⟨l', named, hx, hnamed, hgiven⟩
      obtain rfl := Expr.object.inj hx
      exact Option.bind_eq_some_iff.2
        ⟨named, namedMembers?_eq_some_iff.2 hnamed, pick?_eq_some_iff.2 hgiven⟩
  | array items =>
    have hobject : ¬IsObjectOf names least (.array items) values := by
      rintro ⟨l, named, hx, -⟩
      cases hx
    rw [IsRecordOf, or_iff_right hobject, recordMembers?]
    constructor
    · intro h
      by_cases hlength : least ≤ items.length ∧ items.length ≤ names.length
      · rw [if_pos hlength] at h
        obtain rfl := Option.some.inj h
        refine ⟨items, names.length - items.length, rfl, hlength.1, rfl, ?_⟩
        rw [List.length_append, List.length_map, List.length_replicate]
        omega
      · rw [if_neg hlength] at h
        cases h
    · rintro ⟨items', missing, hx, hleast, rfl, hlength⟩
      obtain rfl := Expr.array.inj hx
      rw [List.length_append, List.length_map, List.length_replicate] at hlength
      rw [if_pos ⟨hleast, by omega⟩, ← hlength, Nat.add_sub_cancel_left]
  | _ =>
    refine iff_of_false (by simp [recordMembers?]) ?_
    rintro (⟨l, named, hx, -⟩ | ⟨items, missing, hx, -⟩) <;> cases hx

/-- Whether an expression is an array. -/
def isArray : Expr → Bool
  | .array _ => true
  | _ => false

/-- A record that is no array is an object. -/
theorem IsRecordOf.isObjectOf {names : List String} {least : ℕ} {x : Expr}
    {values : List (Option Expr)} (h : IsRecordOf names least x values)
    (harray : isArray x = false) : IsObjectOf names least x values := by
  rcases h with hobject | ⟨items, missing, rfl, -⟩
  · exact hobject
  · cases harray

theorem IsObjectOf.isArray_eq {names : List String} {least : ℕ} {x : Expr}
    {values : List (Option Expr)} (h : IsObjectOf names least x values) : isArray x = false := by
  obtain ⟨l, named, rfl, -⟩ := h
  rfl

/-! ### Catalogues -/

/-- An expression gives a list: an array gives its items, and a missing one gives none. -/
inductive IsListForm : Option Expr → List Expr → Prop where
  | missing : IsListForm none []
  | array (items : List Expr) : IsListForm (some (.array items)) items

/-- A string, a number or a truth value has a text. -/
inductive HasText : Json.Value → String → Prop where
  | string (text : String) : HasText (.string text) text
  | number (text : String) : HasText (.number text) text
  | bool (b : Bool) : HasText (.bool b) (toString b)

/-- An expression is a register of an environment: an object with a name that is a string, and each
other member has a text. Repeated members count as in `Json.Value`. -/
def IsRegister (label : String) (x : Expr) (o : Observation) : Prop :=
  ∃ l members, x = .object l ∧ Json.Value.ofExpr? entryDepth x = some (.object members) ∧
    members.lookup "name" = some (.string o.register) ∧
    List.Forall₂ (fun m f => m.1 = f.1 ∧ HasText m.2 f.2) (members.filter (·.1 ≠ "name"))
      o.fields.entries ∧
    o.environment = label

/-- An expression is an environment: a record with a label that is a string, and a list of
registers, one for each observation. -/
def IsEnvironment (form : RecordForm) (x : Expr) (os : List Observation) : Prop :=
  ∃ units label registers? xs, form ["env", "registers"] 1 x [some (.string units), registers?] ∧
    Json.text? units = some label ∧ IsListForm registers? xs ∧
    List.Forall₂ (IsRegister label) xs os

/-- An expression is a catalogue: a record with a list of environments, and the observations are
those of the environments, in order. -/
def IsCatalogue (form : RecordForm) (x : Expr) (os : List Observation) : Prop :=
  ∃ environments? xs oss, form ["environments"] 0 x [environments?] ∧
    IsListForm environments? xs ∧ List.Forall₂ (IsEnvironment form) xs oss ∧ os = oss.flatten

/-- An array stands for the document, or for one of its environments. -/
def HasArrayForRecord (x : Expr) : Prop :=
  isArray x = true ∨
    ∃ xs, IsObjectOf ["environments"] 0 x [some (.array xs)] ∧ ∃ y ∈ xs, isArray y = true

/-! ### Registers -/

/-- Two relations hold one after the other along lists exactly if a list stands between them. -/
theorem forall₂_comp_iff {α β γ : Type} {R : α → β → Prop} {S : β → γ → Prop} {l : List α}
    {n : List γ} :
    List.Forall₂ (fun a c => ∃ b, R a b ∧ S b c) l n
      ↔ ∃ m, List.Forall₂ R l m ∧ List.Forall₂ S m n := by
  constructor
  · intro h
    induction h with
    | nil => exact ⟨[], .nil, .nil⟩
    | cons hhead _ ih =>
      obtain ⟨b, hR, hS⟩ := hhead
      obtain ⟨m, hm, hn⟩ := ih
      exact ⟨b :: m, .cons hR hm, .cons hS hn⟩
  · rintro ⟨m, hm, hn⟩
    induction hm generalizing n with
    | nil =>
      obtain rfl := List.forall₂_nil_left_iff.1 hn
      exact .nil
    | cons hR _ ih =>
      obtain ⟨c, n', hS, hn', rfl⟩ := List.forall₂_cons_left_iff.1 hn
      exact .cons ⟨_, hR, hS⟩ (ih hn')

theorem ofItems?_eq_some_iff {d : ℕ} {xs : List Expr} {vs : List Json.Value} :
    Json.Value.ofItems? d xs = some vs
      ↔ List.Forall₂ (fun x v => Json.Value.ofExpr? d x = some v) xs vs := by
  have hmapM : Json.Value.ofItems? d xs = xs.mapM (Json.Value.ofExpr? d) := by
    induction xs with
    | nil => rfl
    | cons x xs ih =>
      rw [Json.Tree.ofItems?_cons, List.mapM_cons, ih]
      cases Json.Value.ofExpr? d x <;> cases xs.mapM (Json.Value.ofExpr? d) <;> rfl
  rw [hmapM, mapM_eq_some_iff]

/-- Only an object stands for an object. -/
theorem exists_object_of_ofExpr? {d : ℕ} {x : Expr} {members : List (String × Json.Value)}
    (h : Json.Value.ofExpr? d x = some (.object members)) : ∃ l, x = .object l := by
  cases x with
  | object l => exact ⟨l, rfl⟩
  | array items => cases d <;> simp [Json.Value.ofExpr?] at h
  | _ => simp [Json.Value.ofExpr?] at h

/-- The content of a value has the text of the value. -/
theorem text?_contentOfJson_eq_some_iff {v : Json.Value} {text : String} :
    (contentOfJson v).text? = some text ↔ HasText v text := by
  constructor
  · intro h
    cases v with
    | string s =>
      obtain rfl := Option.some.inj h
      exact .string s
    | number s =>
      obtain rfl := Option.some.inj h
      exact .number s
    | bool b =>
      obtain rfl := Option.some.inj h
      exact .bool b
    | null => cases h
    | array items => cases h
    | object members => cases h
  · rintro (_ | _ | _) <;> rfl

/-- The content of a value is a string exactly if the value is. -/
theorem contentOfJson_eq_string_iff {v : Json.Value} {text : String} :
    contentOfJson v = .string text ↔ v = .string text := by
  cases v <;> simp [contentOfJson]

/-- The entry of an object makes an observation with the name and the texts of the members. -/
theorem makes_registerOfJson_object_iff {label : String} {members : List (String × Json.Value)}
    {o : Observation} :
    (registerOfJson (.object members)).Makes label o ↔
      members.lookup "name" = some (.string o.register) ∧
      List.Forall₂ (fun m f => m.1 = f.1 ∧ HasText m.2 f.2) (members.filter (·.1 ≠ "name"))
        o.fields.entries ∧
      o.environment = label := by
  have hlookup (register : String) :
      (members.map fun m => (m.1, contentOfJson m.2)).lookup nameKey = some (.string register)
        ↔ members.lookup "name" = some (.string register) := by
    rw [Json.lookup_map, Option.map_eq_some_iff]
    simp only [contentOfJson_eq_string_iff, exists_eq_right, nameKey]
  have hfields (entries : List (String × String)) :
      List.Forall₂ IsFieldOf
          ((members.map fun m => (m.1, contentOfJson m.2)).filter (·.1 ≠ nameKey)) entries
        ↔ List.Forall₂ (fun m f => m.1 = f.1 ∧ HasText m.2 f.2) (members.filter (·.1 ≠ "name"))
          entries := by
    rw [List.filter_map, List.forall₂_map_left_iff]
    refine iff_of_eq (congrArg (List.Forall₂ · _ entries) ?_)
    funext m f
    exact propext (and_congr_right' text?_contentOfJson_eq_some_iff)
  constructor
  · intro h
    generalize hentry : registerOfJson (.object members) = entry at h
    obtain ⟨hname, htexts⟩ := h
    obtain rfl := Option.some.inj hentry
    exact ⟨(hlookup _).1 hname, (hfields _).1 htexts, rfl⟩
  · obtain ⟨environment, register, ⟨entries⟩⟩ := o
    rintro ⟨hname, htexts, rfl⟩
    exact .intro ((hlookup _).2 hname) ((hfields _).2 htexts)

/-- A register is an expression whose entry makes the observation. -/
theorem isRegister_iff {label : String} {x : Expr} {o : Observation} :
    IsRegister label x o ↔
      ∃ v, Json.Value.ofExpr? entryDepth x = some v ∧ (registerOfJson v).Makes label o := by
  constructor
  · rintro ⟨l, members, -, hvalue, hobservation⟩
    exact ⟨_, hvalue, makes_registerOfJson_object_iff.2 hobservation⟩
  · rintro ⟨v, hvalue, hmakes⟩
    cases v with
    | object members =>
      obtain ⟨l, rfl⟩ := exists_object_of_ofExpr? hvalue
      exact ⟨l, members, rfl, hvalue, makes_registerOfJson_object_iff.1 hmakes⟩
    | _ => cases hmakes

/-- Registers are expressions whose entries make the observations. -/
theorem forall₂_isRegister_iff {label : String} {xs : List Expr} {os : List Observation} :
    List.Forall₂ (IsRegister label) xs os ↔
      ∃ vs, Json.Value.ofItems? entryDepth xs = some vs ∧
        MakeAll label (vs.map registerOfJson) os := by
  simp only [ofItems?_eq_some_iff, MakeAll, List.forall₂_map_left_iff]
  rw [← forall₂_comp_iff]
  refine iff_of_eq (congrArg (List.Forall₂ · xs os) ?_)
  funext x o
  exact propext isRegister_iff

/-! ### Environments -/

theorem items?_eq_some_iff {e? : Option Expr} {xs : List Expr} :
    items? e? = some xs ↔ IsListForm e? xs := by
  constructor
  · intro h
    match e? with
    | none =>
      obtain rfl := Option.some.inj h
      exact .missing
    | some (.array items) =>
      obtain rfl := Option.some.inj h
      exact .array items
  · rintro (_ | _) <;> rfl

/-- A label is found exactly if a string stands for it. -/
theorem labelOfJson?_eq_some_some_iff {e? : Option Expr} {label : String} :
    labelOfJson? e? = some (some label) ↔
      ∃ units, e? = some (.string units) ∧ Json.text? units = some label := by
  constructor
  · intro h
    match e? with
    | some (.string units) =>
      obtain ⟨text, htext, hlabel⟩ := Option.map_eq_some_iff.1 h
      obtain rfl := Option.some.inj hlabel
      exact ⟨units, rfl, htext⟩
  · rintro ⟨units, rfl, htext⟩
    rw [labelOfJson?, htext]
    rfl

/-- The entry of an environment is made of the members of a record. -/
theorem environmentOfJson?_eq_some_iff {x : Expr} {entry : EnvironmentEntry} :
    environmentOfJson? x = some entry ↔
      ∃ label? registers? xs vs, IsRecordOf ["env", "registers"] 1 x [label?, registers?] ∧
        labelOfJson? label? = some entry.label? ∧ IsListForm registers? xs ∧
        Json.Value.ofItems? entryDepth xs = some vs ∧
        entry.registers? = some (vs.map registerOfJson) := by
  simp only [← recordMembers?_eq_some_iff, ← items?_eq_some_iff]
  rw [environmentOfJson?]
  constructor
  · intro h
    obtain ⟨values, hvalues, h⟩ := Option.bind_eq_some_iff.1 h
    rcases values with _ | ⟨label?, _ | ⟨registers?, _ | ⟨value?, values⟩⟩⟩
    · cases h
    · cases h
    · obtain ⟨label, hlabel, h⟩ := Option.bind_eq_some_iff.1 h
      obtain ⟨xs, hxs, h⟩ := Option.bind_eq_some_iff.1 h
      obtain ⟨vs, hvs, h⟩ := Option.bind_eq_some_iff.1 h
      obtain rfl := Option.some.inj h
      exact ⟨label?, registers?, xs, vs, hvalues, hlabel, hxs, hvs, rfl⟩
    · cases h
  · obtain ⟨entryLabel?, entryRegisters?⟩ := entry
    rintro ⟨label?, registers?, xs, vs, hvalues, hlabel, hxs, hvs, rfl⟩
    have hvalues' :
        recordMembers? [Format.json.labelKey, Format.json.registersKey] 1 x
          = some [label?, registers?] := hvalues
    simp only [hvalues', bind, Option.bind, hlabel, hxs, hvs]
    rfl

/-- An environment is an expression whose entry has a label and makes the observations. -/
theorem isEnvironment_iff {x : Expr} {os : List Observation} :
    IsEnvironment IsRecordOf x os ↔
      ∃ label registers, environmentOfJson? x = some ⟨some label, some registers⟩ ∧
        MakeAll label registers os := by
  simp only [environmentOfJson?_eq_some_iff, IsEnvironment, forall₂_isRegister_iff,
    labelOfJson?_eq_some_some_iff]
  constructor
  · rintro ⟨units, label, registers?, xs, hrecord, hlabel, hlist, vs, hvs, hmake⟩
    exact ⟨label, _, ⟨_, registers?, xs, vs, hrecord, ⟨units, rfl, hlabel⟩, hlist, hvs, rfl⟩, hmake⟩
  · rintro ⟨label, registers, ⟨label?, registers?, xs, vs, hrecord, hlabel?, hlist, hvs, hentry⟩,
      hmake⟩
    obtain ⟨units, rfl, hlabel⟩ := hlabel?
    obtain rfl := Option.some.inj hentry
    exact ⟨units, label, registers?, xs, hrecord, hlabel, hlist, vs, hvs, hmake⟩

/-- Environments are expressions whose entries make the observations, one list after the other. -/
theorem exists_forall₂_isEnvironment_iff {xs : List Expr} {os : List Observation} :
    (∃ oss, List.Forall₂ (IsEnvironment IsRecordOf) xs oss ∧ os = oss.flatten) ↔
      ∃ entries, xs.mapM environmentOfJson? = some entries ∧ Make (entries.map some) os := by
  simp only [mapM_eq_some_iff]
  constructor
  · rintro ⟨oss, hxs, rfl⟩
    induction hxs with
    | nil => exact ⟨[], .nil, .nil⟩
    | cons hx _ ih =>
      obtain ⟨label, registers, hentry, hmake⟩ := isEnvironment_iff.1 hx
      obtain ⟨entries, hentries, hrest⟩ := ih
      exact ⟨_ :: entries, .cons hentry hentries, .cons hmake hrest⟩
  · rintro ⟨entries, hxs, hmake⟩
    induction hxs generalizing os with
    | nil =>
      cases hmake
      exact ⟨[], .nil, rfl⟩
    | cons hentry _ ih =>
      obtain ⟨label, registers, os, os', heq, hregisters, hrest, rfl⟩ := make_cons_iff.1 hmake
      obtain rfl := Option.some.inj heq
      obtain ⟨oss, hoss, rfl⟩ := ih hrest
      exact ⟨os :: oss, .cons (isEnvironment_iff.2 ⟨label, registers, hentry, hregisters⟩) hoss,
        rfl⟩

/-! ### Documents -/

/-- The outline of a catalogue is made of the environments in a record. -/
theorem ofJson?_eq_some_iff {x : Expr} {o : Outline} :
    Outline.ofJson? x = some o ↔
      ∃ environments? xs entries, IsRecordOf ["environments"] 0 x [environments?] ∧
        IsListForm environments? xs ∧ xs.mapM environmentOfJson? = some entries ∧
        o = some (entries.map some) := by
  simp only [← recordMembers?_eq_some_iff, ← items?_eq_some_iff]
  rw [Outline.ofJson?]
  constructor
  · intro h
    obtain ⟨values, hvalues, h⟩ := Option.bind_eq_some_iff.1 h
    rcases values with _ | ⟨environments?, _ | ⟨value?, values⟩⟩
    · cases h
    · obtain ⟨xs, hxs, h⟩ := Option.bind_eq_some_iff.1 h
      obtain ⟨entries, hentries, h⟩ := Option.bind_eq_some_iff.1 h
      exact ⟨environments?, xs, entries, hvalues, hxs, hentries, (Option.some.inj h).symm⟩
    · cases h
  · rintro ⟨environments?, xs, entries, hvalues, hxs, hentries, rfl⟩
    have hvalues' : recordMembers? [Format.json.environmentsKey] 0 x = some [environments?] :=
      hvalues
    simp only [hvalues', bind, Option.bind, hxs, hentries]
    rfl

/-- An expression has an outline without flaws exactly if it is a catalogue. -/
theorem exists_ofJson?_iff {x : Expr} {os : List Observation} :
    (∃ o, Outline.ofJson? x = some o ∧ o.read = ⟨os, none⟩) ↔ IsCatalogue IsRecordOf x os := by
  simp only [ofJson?_eq_some_iff]
  constructor
  · rintro ⟨_, ⟨environments?, xs, entries, hrecord, hlist, hentries, rfl⟩, hread⟩
    obtain ⟨oss, hoss⟩ :=
      exists_forall₂_isEnvironment_iff.2 ⟨entries, hentries, readEnvironments_eq_iff.1 hread⟩
    exact ⟨environments?, xs, oss, hrecord, hlist, hoss⟩
  · rintro ⟨environments?, xs, oss, hrecord, hlist, hoss⟩
    obtain ⟨entries, hentries, hmake⟩ := exists_forall₂_isEnvironment_iff.1 ⟨oss, hoss⟩
    exact ⟨_, ⟨environments?, xs, entries, hrecord, hlist, hentries, rfl⟩,
      readEnvironments_eq_iff.2 hmake⟩

/-- An object gives one list of values only. -/
theorem IsObjectOf.unique {names : List String} {least : ℕ} {x : Expr}
    {values values' : List (Option Expr)} (h : IsObjectOf names least x values)
    (h' : IsObjectOf names least x values') : values = values' := by
  have hvalues := recordMembers?_eq_some_iff.2 (.inl h)
  have hvalues' := recordMembers?_eq_some_iff.2 (.inl h')
  exact Option.some.inj (hvalues.symm.trans hvalues')

/-- A catalogue has the intended shape exactly if no array stands for an object. -/
theorem isCatalogue_isObjectOf_iff {x : Expr} {os : List Observation} :
    IsCatalogue IsObjectOf x os ↔ ¬HasArrayForRecord x ∧ IsCatalogue IsRecordOf x os := by
  constructor
  · rintro ⟨environments?, xs, oss, hobject, hlist, henvironments, rfl⟩
    constructor
    · rintro (harray | ⟨xs', hobject', y, hy, harray⟩)
      · exact Bool.false_ne_true (hobject.isArray_eq.symm.trans harray)
      · -- An object gives one list of environments only, so these are the same.
        obtain rfl := List.head_eq_of_cons_eq (hobject.unique hobject')
        cases hlist
        have hitems : ∀ y ∈ xs, isArray y = false := by
          refine ((List.forall₂_and_left (R := fun _ _ => True) xs oss).1
            (henvironments.imp ?_)).1
          rintro y os ⟨units, label, registers?, ys, hrecord, -⟩
          exact ⟨hrecord.isArray_eq, trivial⟩
        exact Bool.false_ne_true ((hitems y hy).symm.trans harray)
    · refine ⟨environments?, xs, oss, .inl hobject, hlist, henvironments.imp ?_, rfl⟩
      rintro x os ⟨units, label, registers?, ys, hrecord, hrest⟩
      exact ⟨units, label, registers?, ys, .inl hrecord, hrest⟩
  · rintro ⟨harray, environments?, xs, oss, hrecord, hlist, henvironments, rfl⟩
    rw [HasArrayForRecord, not_or] at harray
    have hobject := hrecord.isObjectOf (Bool.eq_false_iff.2 harray.1)
    have hitems : ∀ y ∈ xs, isArray y = false := by
      intro y hy
      cases hlist with
      | missing => cases hy
      | array => exact Bool.eq_false_iff.2 fun hyArray => harray.2 ⟨xs, hobject, y, hy, hyArray⟩
    refine ⟨environments?, xs, oss, hobject, hlist, ?_, rfl⟩
    refine ((List.forall₂_and_left xs oss).2 ⟨hitems, henvironments⟩).imp ?_
    rintro y os ⟨hy, units, label, registers?, ys, hy', hrest⟩
    exact ⟨units, label, registers?, ys, hy'.isObjectOf hy, hrest⟩

/-- **The texts that are read as catalogues** are those of the intended shape and, beyond the
intent, those with an array for the document or for an environment. -/
theorem parse_json_eq_ok_iff (origin text : String) (os : List Observation) :
    (parse origin text .json).result = .ok os ↔
      ∃ x, Expr.parse? text = some x ∧
        (IsCatalogue IsObjectOf x os ∨ HasArrayForRecord x ∧ IsCatalogue IsRecordOf x os) := by
  have hshape (x : Expr) :
      IsCatalogue IsObjectOf x os ∨ HasArrayForRecord x ∧ IsCatalogue IsRecordOf x os
        ↔ IsCatalogue IsRecordOf x os := by
    rw [isCatalogue_isObjectOf_iff]
    by_cases harray : HasArrayForRecord x <;> simp [harray]
  rw [result_parse_eq_ok_iff]
  simp only [hshape]
  simp only [← exists_ofJson?_iff]
  constructor
  · rintro ⟨o, houtline, hread⟩
    rw [outline] at houtline
    cases hbind : (Expr.parse? text).bind Outline.ofJson? with
    | none =>
      rw [hbind] at houtline
      cases houtline
    | some o' =>
      rw [hbind] at houtline
      obtain rfl := Except.ok.inj houtline
      obtain ⟨x, hparse, ho⟩ := Option.bind_eq_some_iff.1 hbind
      exact ⟨x, hparse, o', ho, hread⟩
  · rintro ⟨x, hparse, o, ho, hread⟩
    refine ⟨o, ?_, hread⟩
    rw [outline, hparse, Option.bind_some, ho]

/-- A text of arrays alone is read as a catalogue with one observation. -/
theorem parse_json_of_arrays :
    (parse "c" "[[[\"e\",[\x7b\"name\":\"R\"\x7d]]]]" .json).result = .ok [⟨"e", "R", ⟨[]⟩⟩] ∧
      ∀ x os, Expr.parse? "[[[\"e\",[\x7b\"name\":\"R\"\x7d]]]]" = some x →
        ¬IsCatalogue IsObjectOf x os := by
  constructor
  · decide +kernel
  · intro x os hparse hcatalogue
    have harray : (Expr.parse? "[[[\"e\",[\x7b\"name\":\"R\"\x7d]]]]").all isArray = true := by
      decide +kernel
    rw [hparse] at harray
    exact (isCatalogue_isObjectOf_iff.1 hcatalogue).1 (.inl harray)

end RegisterTables.Catalogue
