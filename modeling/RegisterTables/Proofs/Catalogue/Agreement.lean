import RegisterTables.Proofs.Catalogue.Drafts

/-!
# The two formats agree

`Draft.parse_agree`: whatever a draft says, sound or not, it may be written in either format, and
reading it comes to the same. Either both texts are read into the same observations, out of the same
number of environments, or both have a flaw behind the same number of observations. The flaw is the
first one that the draft has, and where it is one of the members of a register, it is worded alike.

JSON has a limit to how deep a value may be nested, and TOML has none. A register that is nested
deeper makes no observation in any case (`Draft.isShallow_of_make`), so a text in TOML has a first
flaw then, but no text in JSON is a catalogue (`Draft.parse_json_of_not_isShallow`).
-/

namespace RegisterTables

open Json (Expr Tree)

/-! ### Looking up members -/

namespace Toml

/-- What is found under a name does not depend on the order of the entries. -/
theorem Table.get?_of_perm {written t : Table} (hperm : written.Perm t)
    (hnodup : (written.map (·.1.name)).Nodup) (name : String) :
    t.get? name = written.get? name := by
  induction hperm with
  | nil => rfl
  | cons p _ ih =>
    rw [List.map_cons, List.nodup_cons] at hnodup
    rw [get?_cons, get?_cons, ih hnodup.2]
  | swap p q l =>
    -- Of two neighbours with different names at most one is found.
    have hne : q.1.name ≠ p.1.name := by
      rw [List.map_cons, List.map_cons, List.nodup_cons] at hnodup
      exact fun heq => hnodup.1 (heq ▸ List.mem_cons_self)
    rw [get?_cons, get?_cons, get?_cons, get?_cons]
    by_cases hp : p.1.name = name
    · rw [if_pos hp, if_neg fun hq => hne (hq.trans hp.symm), if_pos hp]
    · rw [if_neg hp, if_neg hp]
  | trans h _ ih₁ ih₂ =>
    rw [ih₂ ((h.map _).nodup_iff.1 hnodup), ih₁ hnodup]

theorem map_name_of_membersShownBy {members : List (String × Tree)} {t : Table}
    (h : MembersShownBy members t) : t.map (·.1.name) = members.map Prod.fst := by
  induction members generalizing t with
  | nil =>
    obtain rfl := h
    rfl
  | cons m members ih =>
    obtain ⟨name, v⟩ := m
    obtain ⟨key, w, t', rfl, rfl, -, hmembers⟩ := h
    rw [List.map_cons, List.map_cons, ih hmembers]

/-- What is found under a name shows the member of that name. -/
theorem get?_of_membersShownBy {members : List (String × Tree)} {t : Table}
    (h : MembersShownBy members t) (name : String) :
    (members.lookup name = none → t.get? name = none) ∧
      ∀ v, members.lookup name = some v → ∃ w, t.get? name = some w ∧ IsShownBy v w := by
  induction members generalizing t with
  | nil =>
    obtain rfl := h
    exact ⟨fun _ => rfl, fun v hv => by simp at hv⟩
  | cons m members ih =>
    obtain ⟨other, v⟩ := m
    obtain ⟨key, w, t', rfl, rfl, hv, hmembers⟩ := h
    rw [Table.get?_cons, List.lookup_cons]
    by_cases hname : name = key.name
    · rw [if_pos hname.symm, beq_iff_eq.2 hname]
      refine ⟨fun hnone => absurd hnone (by simp), ?_⟩
      intro u hu
      obtain rfl := Option.some.inj hu
      exact ⟨w, rfl, hv⟩
    · rw [if_neg fun heq => hname heq.symm, beq_eq_false_iff_ne.2 hname]
      exact ih hmembers

/-- What is found in a table that shows an object. -/
theorem get?_of_isShownBy {members : List (String × Tree)} {t : Table}
    (hnodup : (members.map Prod.fst).Nodup) (h : IsShownBy (.object members) (.table t))
    (name : String) :
    (members.lookup name = none → t.get? name = none) ∧
      ∀ v, members.lookup name = some v → ∃ w, t.get? name = some w ∧ IsShownBy v w := by
  obtain ⟨t', written, heq, hperm, -, hmembers⟩ := h
  obtain rfl := Value.table.inj heq
  rw [Table.get?_of_perm hperm (map_name_of_membersShownBy hmembers ▸ hnodup)]
  exact get?_of_membersShownBy hmembers name

end Toml

namespace Catalogue

/-! ### Writing a draft -/

/-- The members of an object have the names that are written. -/
theorem areNamed_membersExpr (spelling : Json.Spelling) (members : List (String × Tree)) :
    AreNamed (Tree.membersExpr spelling members)
      (members.map fun m => (m.1, m.2.expr spelling)) := by
  induction members with
  | nil => exact .nil
  | cons m members ih => exact .cons ⟨Json.text?_units spelling m.1, rfl⟩ ih

namespace EnvironmentDraft

/-- An environment as it is written: its label, if it has one, and its registers. -/
def tree (format : Format) (e : EnvironmentDraft) : Tree :=
  .object ((e.label?.map fun label => (format.labelKey, .string label)).toList ++
    [(format.registersKey, .array e.registers)])

theorem isProper_tree (format : Format) (e : EnvironmentDraft) : (e.tree format).IsProper := by
  have hproper := e.isProper
  unfold tree
  cases format <;> cases e.label? <;>
    simp [Tree.IsProper, Tree.MembersProper, hproper, Format.labelKey, Format.registersKey]

theorem isTomlForm_of_isShownBy {e : EnvironmentDraft} {w : Toml.Value}
    (h : Toml.IsShownBy (e.tree .toml) w) : e.IsTomlForm w := by
  have hproper := e.isProper_tree .toml
  obtain ⟨t, written, rfl, hrest⟩ := id h
  have hget := Toml.get?_of_isShownBy hproper.1 h
  refine ⟨t, rfl, ?_, .inr ?_⟩
  · obtain ⟨habsent, hpresent⟩ := hget "name"
    cases hlabel : e.label? with
    | none => exact habsent (by rw [hlabel]; rfl)
    | some label =>
      obtain ⟨w, hw, hshows⟩ := hpresent (.string label) (by rw [hlabel]; rfl)
      rw [hw, hshows]
      rfl
  · obtain ⟨w, hw, hshows⟩ := (hget "register").2 (.array e.registers) (by cases e.label? <;> rfl)
    obtain ⟨ws, rfl, hitems⟩ := hshows
    exact ⟨ws, hw, hitems⟩

variable (spelling : Json.Spelling)

theorem isJsonForm_expr (e : EnvironmentDraft) : e.IsJsonForm ((e.tree .json).expr spelling) := by
  have hregisters := Tree.itemsShownBy_itemsExpr spelling e.registers
  refine ⟨_, _, rfl, areNamed_membersExpr spelling _, ?_, .inr ⟨_, ?_, hregisters⟩⟩
  · cases e.label? with
    | none => exact .inl rfl
    | some label => exact ⟨_, rfl, Json.text?_units spelling label⟩
  · cases e.label? <;> rfl

end EnvironmentDraft

namespace Draft

/-- A draft in TOML, on one line. -/
def tomlText (spelling : Toml.Spelling) (c : Draft) : String :=
  Toml.Inline.text spelling "environment" (.array (c.map (EnvironmentDraft.tree .toml)))

/-- A draft in JSON, on one line. -/
def jsonText (spelling : Json.Spelling) (c : Draft) : String :=
  Tree.text spelling (.object [("environments", .array (c.map (EnvironmentDraft.tree .json)))])

/-- **Every draft has a text in TOML**, for any spelling of its strings. -/
theorem isTomlForm_tomlText (spelling : Toml.Spelling) (c : Draft) :
    c.IsTomlForm (c.tomlText spelling) := by
  have hproper : (Tree.array (c.map (EnvironmentDraft.tree .toml))).IsProper := by
    show Tree.ItemsProper _
    induction c with
    | nil => trivial
    | cons e c ih => exact ⟨e.isProper_tree .toml, ih⟩
  obtain ⟨w, hparse, ws, rfl, hitems⟩ :=
    Toml.Inline.parse_text spelling "environment" (List.cons_ne_nil _ _) (List.all_eq_true.1 rfl)
      hproper
  refine ⟨_, hparse, .inr ⟨ws, rfl, ?_⟩⟩
  -- What is left is said of the values alone, whatever text they were read of.
  clear hparse hproper
  induction c generalizing ws with
  | nil =>
    obtain rfl := hitems
    exact .nil
  | cons e c ih =>
    obtain ⟨w, ws', rfl, hw, hrest⟩ := hitems
    exact .cons (EnvironmentDraft.isTomlForm_of_isShownBy hw) (ih ws' hrest)

/-- **Every draft has a text in JSON**, for any spelling of its strings. -/
theorem isJsonForm_jsonText (spelling : Json.Spelling) (c : Draft) :
    c.IsJsonForm (c.jsonText spelling) := by
  have hparse := Tree.parse?_text spelling
    (.object [("environments", .array (c.map (EnvironmentDraft.tree .json)))])
  refine ⟨_, _, hparse, areNamed_membersExpr spelling _, .inr ⟨_, rfl, ?_⟩⟩
  clear hparse
  induction c with
  | nil => exact .nil
  | cons e c ih => exact .cons (e.isJsonForm_expr spelling) ih

end Draft

/-! ### Agreement -/

/-- The flaw is one of the members of a register: the name is missing, or a field is no scalar. -/
def Flaw.IsOfMember : Flaw → Prop
  | registerUnnamed _ => True
  | fieldNotScalar _ _ _ => True
  | _ => False

/-- A flaw of the members of a register is worded alike in both formats. -/
theorem Flaw.reason_eq_of_isOfMember {flaw : Flaw} (h : flaw.IsOfMember) :
    flaw.reason .toml = flaw.reason .json := by
  cases flaw with
  | registerUnnamed _ | fieldNotScalar _ _ _ => rfl
  | _ => exact absurd h id

namespace Draft

/-- What is read of a draft in TOML and in JSON comes to the same: the same observations out of the
same number of environments, or the first flaw behind the same number of observations. -/
inductive Agree (c : Draft) : Logged (List Observation) → Logged (List Observation) → Prop where
  /-- All registers make observations. -/
  | observations {os : List Observation} (origin origin' : String) (hmake : Make c.entries os) :
      Agree c ⟨.ok os, [.loadedCatalogue origin c.length os.length]⟩
        ⟨.ok os, [.loadedCatalogue origin' c.length os.length]⟩
  /-- There is a first flaw. -/
  | flaw {index : ℕ} {flaw : Flaw} (hflaw : HasFirstFlaw c.entries index flaw)
      (hreason : flaw.IsOfMember → flaw.reason .toml = flaw.reason .json) :
      Agree c ⟨.error (.malformedObservation index (flaw.reason .toml)), []⟩
        ⟨.error (.malformedObservation index (flaw.reason .json)), []⟩

/-- Two texts with the outline of a draft agree. -/
theorem agree_of_outline {c : Draft} {toml json : String}
    (htoml : outline toml .toml = .ok (some c.entries))
    (hjson : outline json .json = .ok (some c.entries)) (origin origin' : String) :
    c.Agree (parse origin toml .toml) (parse origin' json .json) := by
  rcases readEnvironments_cases c.entries with ⟨os, hmake, hread⟩ | ⟨os, flaw, hflaw, hread⟩
  · have hsize : Outline.size (some c.entries) = c.length := by
      rw [Outline.size, entries, List.length_map]
    rw [parse_eq_ok htoml hread, parse_eq_ok hjson hread, hsize]
    exact .observations origin origin' hmake
  · rw [parse_eq_error htoml hread, parse_eq_error hjson hread]
    exact .flaw hflaw Flaw.reason_eq_of_isOfMember

/-! ### Too deep for JSON -/

/-- No text in JSON that shows a draft with a register beyond the limit is a catalogue. -/
theorem parse_json_of_not_isShallow {c : Draft} {json : String} (hdeep : ¬c.IsShallow)
    (hjson : c.IsJsonForm json) (origin : String) :
    parse origin json .json = ⟨.error (.unparsable origin "not a catalogue in JSON"), []⟩ := by
  rw [parse, (outline_of_isJsonForm hjson).2 hdeep]

/-- A tree whose content has a text has no parts. -/
theorem depth_eq_zero_of_text? {v : Tree} {text : String}
    (h : (contentOfTree v).text? = some text) : v.depth = 0 := by
  cases v with
  | string _ | bool _ | integer _ => rfl
  | array _ | object _ => cases h

/-- A tree that makes an observation is an object whose members have no parts. -/
theorem depth_le_of_makes {v : Tree} {label : String} {o : Observation} (hproper : v.IsProper)
    (h : (registerOfTree v).Makes label o) : v.depth ≤ 1 := by
  cases v with
  | object members =>
    obtain ⟨⟨register, hname⟩, htexts⟩ := RegisterEntry.exists_makes_iff.1 ⟨o, h⟩
    have hmembers : Tree.membersDepth members ≤ 0 := by
      rw [Tree.membersDepth_le_iff]
      intro m hm
      apply Nat.le_of_eq
      by_cases hkey : m.1 = nameKey
      · -- Names are pairwise distinct, so this is the member that is found to be a text.
        have hfound : members.lookup nameKey = some m.2 := hkey ▸ Json.lookup_of_mem hproper.1 hm
        rw [Json.lookup_map, hfound] at hname
        have htext : (contentOfTree m.2).text? = some register := by
          rw [Option.some.inj hname]
          rfl
        exact depth_eq_zero_of_text? htext
      · obtain ⟨text, htext⟩ := htexts _ (List.mem_map_of_mem hm) hkey
        exact depth_eq_zero_of_text? htext
    rw [Tree.depth]
    omega
  | _ => cases h

/-- A register beyond the limit makes no observation, so a draft that is read has none. -/
theorem isShallow_of_make {c : Draft} {os : List Observation} (h : Make c.entries os) :
    c.IsShallow := by
  induction c generalizing os with
  | nil => exact List.forall_mem_nil _
  | cons e c ih =>
    obtain ⟨label, registers, os, os', hentry, hregisters, hrest, rfl⟩ := make_cons_iff.1 h
    obtain rfl : e.registers.map registerOfTree = registers :=
      Option.some.inj (congrArg EnvironmentEntry.registers? (Option.some.inj hentry))
    refine List.forall_mem_cons.2 ⟨?_, ih hrest⟩
    intro v hv
    obtain ⟨o, ho⟩ := exists_forall₂_iff.1 ⟨_, hregisters⟩ _ (List.mem_map_of_mem hv)
    have hdepth := depth_le_of_makes (Tree.itemsProper_iff.1 e.isProper v hv) ho
    omega

/-- A text in TOML that shows a draft with a register beyond the limit has a first flaw. -/
theorem parse_toml_of_not_isShallow {c : Draft} {toml : String} (hdeep : ¬c.IsShallow)
    (htoml : c.IsTomlForm toml) (origin : String) :
    ∃ index flaw, HasFirstFlaw c.entries index flaw ∧
      parse origin toml .toml = ⟨.error (.malformedObservation index (flaw.reason .toml)), []⟩ := by
  rcases readEnvironments_cases c.entries with ⟨os, hmake, -⟩ | ⟨os, flaw, hflaw, hread⟩
  · exact absurd (isShallow_of_make hmake) hdeep
  · exact ⟨os.length, flaw, hflaw, parse_eq_error (outline_of_isTomlForm htoml) hread origin⟩

/-- Lists within each other. -/
def nested : ℕ → Tree
  | 0 => .array []
  | n + 1 => .array [nested n]

theorem depth_nested (n : ℕ) : (nested n).depth = n + 1 := by
  induction n with
  | zero => rfl
  | succ n ih => rw [nested, Tree.depth, Tree.itemsDepth, Tree.itemsDepth, ih, Nat.max_zero]

theorem isProper_nested (n : ℕ) : (nested n).IsProper := by
  induction n with
  | zero => trivial
  | succ n ih => exact ⟨ih, trivial⟩

/-- A register with a field of 128 lists within each other. -/
def deep : Draft :=
  [⟨some "e", [.object [("name", .string "R"), ("x", nested 127)]], by
    simp [Tree.ItemsProper, Tree.IsProper, Tree.MembersProper, isProper_nested]⟩]

theorem not_isShallow_deep : ¬deep.IsShallow := by
  intro h
  have hdepth := h _ List.mem_cons_self _ List.mem_cons_self
  rw [Tree.depth, Tree.membersDepth, Tree.membersDepth, depth_nested] at hdepth
  simp [Tree.depth, Tree.membersDepth] at hdepth

/-! ### Agreement of the readers -/

/-- **The two formats agree.** Every draft may be written in either format, and however that is
done, reading the texts comes to the same, unless a register is nested deeper than JSON allows. Such
a register is a flaw. Then the text in TOML has a first flaw, and the text in JSON is no catalogue.
-/
theorem parse_agree (c : Draft) :
    (∀ spelling, c.IsTomlForm (c.tomlText spelling)) ∧
    (∀ spelling, c.IsJsonForm (c.jsonText spelling)) ∧
    ∀ toml json, c.IsTomlForm toml → c.IsJsonForm json → ∀ origin origin',
      (c.IsShallow → c.Agree (parse origin toml .toml) (parse origin' json .json)) ∧
      (¬c.IsShallow →
        (∃ index flaw, HasFirstFlaw c.entries index flaw ∧
          parse origin toml .toml
            = ⟨.error (.malformedObservation index (flaw.reason .toml)), []⟩) ∧
        parse origin' json .json
          = ⟨.error (.unparsable origin' "not a catalogue in JSON"), []⟩) := by
  refine ⟨fun spelling => c.isTomlForm_tomlText spelling,
    fun spelling => c.isJsonForm_jsonText spelling, ?_⟩
  intro toml json htoml hjson origin origin'
  constructor
  · intro hshallow
    exact agree_of_outline (outline_of_isTomlForm htoml)
      ((outline_of_isJsonForm hjson).1 hshallow) origin origin'
  · intro hdeep
    exact ⟨parse_toml_of_not_isShallow hdeep htoml origin,
      parse_json_of_not_isShallow hdeep hjson origin'⟩

/-- An environment without registers, one with a register whose name comes last, and one with a
register that has no name. -/
def unnamed : Draft :=
  [⟨some "a", [], trivial⟩,
    ⟨some "b", [.object [("x", .integer (-1)), ("name", .string "R")]], by
      simp [Tree.ItemsProper, Tree.IsProper, Tree.MembersProper]⟩,
    ⟨some "c", [.object [("name", .bool true), ("y", .array [])]], by
      simp [Tree.ItemsProper, Tree.IsProper, Tree.MembersProper]⟩]

/-- A missing name is found in both formats, and a field that is nested too deep in one of them. -/
theorem parse_agree_unnamed :
    (unnamed.IsShallow ∧ unnamed.Agree (parse "toml" (unnamed.tomlText .standard) .toml)
      (parse "json" (unnamed.jsonText .standard) .json)) ∧
    ¬deep.IsShallow ∧
      (∃ index flaw, HasFirstFlaw deep.entries index flaw ∧
        parse "toml" (deep.tomlText .standard) .toml
          = ⟨.error (.malformedObservation index (flaw.reason .toml)), []⟩) ∧
      parse "json" (deep.jsonText .standard) .json
        = ⟨.error (.unparsable "json" "not a catalogue in JSON"), []⟩ := by
  have hshallow : unnamed.IsShallow := by
    simp [unnamed, IsShallow, Tree.depth, Tree.itemsDepth, Tree.membersDepth]
  obtain ⟨htoml, hjson, hagree⟩ := parse_agree unnamed
  obtain ⟨htoml', hjson', hagree'⟩ := parse_agree deep
  constructor
  · exact ⟨hshallow, (hagree _ _ (htoml _) (hjson _) _ _).1 hshallow⟩
  · exact ⟨not_isShallow_deep, (hagree' _ _ (htoml' _) (hjson' _) _ _).2 not_isShallow_deep⟩

/-- **A field may be too deep for one of the formats.** It is a flaw in TOML, and in JSON the text
is no catalogue. -/
theorem not_agree_deep :
    deep.IsTomlForm (deep.tomlText .standard) ∧ deep.IsJsonForm (deep.jsonText .standard) ∧
      ¬deep.Agree (parse "toml" (deep.tomlText .standard) .toml)
        (parse "json" (deep.jsonText .standard) .json) := by
  have hjson := deep.isJsonForm_jsonText .standard
  refine ⟨deep.isTomlForm_tomlText .standard, hjson, ?_⟩
  rw [parse_json_of_not_isShallow not_isShallow_deep hjson]
  intro h
  generalize parse "toml" (deep.tomlText .standard) .toml = toml at h
  cases h

end Draft

end Catalogue

end RegisterTables
