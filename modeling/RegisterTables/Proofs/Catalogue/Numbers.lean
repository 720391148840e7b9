import Mathlib
import RegisterTables.Proofs.Catalogue.Flaws
import RegisterTables.Proofs.Toml.Places

/-!
# Numbers are kept as they are written

A field whose value is a number has the text of the number: the characters that are written behind
its key, from the first to the last one that can be part of a number, in whatever way the number is
composed of them (`keepsLiterals_of_parse`). This is said of the tables of registers, since a key
tells its place in the text there; they become observations one by one, in order.
-/

namespace RegisterTables.Catalogue

open Toml (IsKeyAt IsLiteralAt IsShownAt lexemes)

/-! ### Tables of registers -/

/-- The table that a value is. -/
def table? : Toml.Value → Option Toml.Table
  | .table t => some t
  | _ => none

/-- The tables of the array of that name. -/
def elements (name : String) (t : Toml.Table) : List Toml.Table :=
  match t.get? name with
  | some (.array items) => items.filterMap table?
  | _ => []

/-- The tables of the registers of all environments, in order. -/
def registerTables (t : Toml.Table) : List Toml.Table :=
  (elements "environment" t).flatMap (elements "register")

/-! ### Fields -/

/-- A field is the entry of a register: if a literal is written as the value of the entry, the field
has all of its characters and no others, and a number is written as such a literal. -/
structure KeepsLiteral (text : String) (p : Toml.Key × Toml.Value) (f : String × String) :
    Prop where
  /-- The field has the name of the entry. -/
  name_eq : f.1 = p.1.name
  /-- The key of the entry is the token in its place. -/
  isKeyAt : IsKeyAt (lexemes text) p.1
  /-- The field has the literal that is written there. -/
  eq_literal : ∀ literal, IsLiteralAt text p.1.place literal → f.2 = String.ofList literal
  /-- A number is written there as a literal. -/
  isLiteralAt : ∀ number, p.2 = .number number →
    IsLiteralAt text p.1.place number.toList ∧ f.2 = number

/-- The fields of an observation are the entries of a register beside its name, in the order in
which they are written. -/
def KeepsLiterals (text : String) (r : Toml.Table) (o : Observation) : Prop :=
  List.Forall₂ (KeepsLiteral text) ((writtenOrder r).filter (·.1.name ≠ "name")) o.fields.entries

variable {text : String}

/-- An entry that has a text keeps what is written. -/
theorem keepsLiteral_of_isShownAt {key : Toml.Key} {v : Toml.Value} {s : String}
    (h : v.isScalar = true → IsShownAt (lexemes text) key v)
    (htext : (contentOfToml v).text? = some s) : KeepsLiteral text (key, v) (key.name, s) := by
  have hscalar : v.isScalar = true := by
    cases v with
    | array _ => cases htext
    | table _ => cases htext
    | _ => rfl
  have hshown := h hscalar
  refine ⟨rfl, ?_, ?_, ?_⟩
  · obtain ⟨_, _, _, _, _, hkey, _⟩ := hshown
    exact hkey.1
  · intro literal hliteral
    rcases hshown.isLiteralAt_iff.1 hliteral with rfl | ⟨b, rfl, rfl⟩
    · exact (Option.some.inj htext).symm
    · rw [String.ofList_toList]
      exact (Option.some.inj htext).symm
  · rintro number rfl
    obtain rfl := Option.some.inj htext
    refine ⟨hshown.isLiteralAt_iff.2 (.inl ?_), rfl⟩
    rw [String.ofList_toList]

/-- A register keeps what is written. -/
theorem keepsLiterals_of_makes {label : String} {r : Toml.Table} {o : Observation}
    (hr : r.AllEntries (IsShownAt (lexemes text)))
    (h : (registerOfToml (.table r)).Makes label o) : KeepsLiterals text r o := by
  generalize hentry : registerOfToml (.table r) = entry at h
  obtain ⟨-, hfields⟩ := h
  obtain rfl := Option.some.inj hentry
  rw [List.filter_map, List.forall₂_map_left_iff] at hfields
  have hwritten : ∀ p ∈ (writtenOrder r).filter (·.1.name ≠ "name"),
      p.2.isScalar = true → IsShownAt (lexemes text) p.1 p.2 := by
    intro p hp
    exact (hr p ((List.mergeSort_perm r _).mem_iff.1 (List.mem_of_mem_filter hp))).1
  refine ((List.forall₂_and_left _ _).2 ⟨hwritten, hfields⟩).imp ?_
  rintro ⟨key, v⟩ ⟨name, s⟩ ⟨hshown, hname, htext⟩
  obtain rfl : key.name = name := hname
  exact keepsLiteral_of_isShownAt hshown htext

/-! ### Environments -/

/-- The registers of an environment keep what is written. -/
theorem keepsLiterals_of_makeAll {label : String} {ws : List Toml.Value} {os : List Observation}
    (hws : ∀ w ∈ ws, w.AllEntries (IsShownAt (lexemes text)))
    (h : MakeAll label (ws.map registerOfToml) os) :
    List.Forall₂ (KeepsLiterals text) (ws.filterMap table?) os := by
  induction ws generalizing os with
  | nil =>
    obtain rfl := List.forall₂_nil_left_iff.1 h
    exact .nil
  | cons w ws ih =>
    obtain ⟨hw, hrest⟩ := List.forall_mem_cons.1 hws
    obtain ⟨o, os, hmakes, hall, rfl⟩ := List.forall₂_cons_left_iff.1 h
    cases w with
    | table r =>
      exact .cons (keepsLiterals_of_makes (Toml.Value.allEntries_table_iff.1 hw) hmakes)
        (ih hrest hall)
    | _ => cases hmakes

/-- Something that is found in a table has the property of its entries. -/
theorem allEntries_of_get? {Q : Toml.Key → Toml.Value → Prop} {t : Toml.Table}
    (ht : t.AllEntries Q) {name : String} {v : Toml.Value} (h : t.get? name = some v) :
    v.AllEntries Q := by
  obtain ⟨p, hp, rfl⟩ := Option.map_eq_some_iff.1 h
  exact (ht p (List.mem_of_find?_eq_some hp)).2

/-- The elements of a list that is found, or that is missing. -/
theorem elements_of_arrayOfToml {t : Toml.Table} {name : String} {ws : List Toml.Value}
    (h : arrayOfToml t name = some ws) :
    elements name t = ws.filterMap table? ∧
      ∀ {Q}, t.AllEntries Q → ∀ w ∈ ws, w.AllEntries Q := by
  rcases arrayOfToml_eq_some_iff.1 h with hget | ⟨hget, rfl⟩
  · refine ⟨by rw [elements, hget], fun ht => ?_⟩
    exact Toml.Value.allEntries_array_iff.1 (allEntries_of_get? ht hget)
  · exact ⟨by rw [elements, hget]; rfl, fun _ => List.forall_mem_nil _⟩

/-- The environments of a catalogue keep what is written. -/
theorem keepsLiterals_of_make {ws : List Toml.Value} {os : List Observation}
    (hws : ∀ w ∈ ws, w.AllEntries (IsShownAt (lexemes text)))
    (h : Make (ws.map environmentOfToml) os) :
    List.Forall₂ (KeepsLiterals text) ((ws.filterMap table?).flatMap (elements "register")) os := by
  induction ws generalizing os with
  | nil =>
    cases h
    exact .nil
  | cons w ws ih =>
    obtain ⟨hw, hrest⟩ := List.forall_mem_cons.1 hws
    cases w with
    | table e =>
      obtain ⟨label, registers, os, os', hentry, hregisters, hothers, rfl⟩ := make_cons_iff.1 h
      obtain ⟨-, hlist⟩ := EnvironmentEntry.mk.inj (Option.some.inj hentry)
      obtain ⟨rs, hrs, rfl⟩ := Option.map_eq_some_iff.1 hlist
      obtain ⟨helements, hall⟩ := elements_of_arrayOfToml hrs
      have hregister :=
        keepsLiterals_of_makeAll (hall (Toml.Value.allEntries_table_iff.1 hw)) hregisters
      have hcons : (Toml.Value.table e :: ws).filterMap table? = e :: ws.filterMap table? := rfl
      rw [hcons, List.flatMap_cons]
      exact List.rel_append (helements ▸ hregister) (ih hrest hothers)
    | _ => cases h

/-- **Numbers are kept as they are written.** If a text in TOML is read as a catalogue, its
registers become the observations, and each field whose value is a number has the characters of that
number in the text, no more and no less. -/
theorem keepsLiterals_of_parse {origin : String} {os : List Observation}
    (h : (parse origin text .toml).result = .ok os) :
    ∃ t, Toml.Table.parse text = .ok t ∧
      List.Forall₂ (KeepsLiterals text) (registerTables t) os := by
  obtain ⟨o, houtline, hread⟩ := result_parse_eq_ok_iff.1 h
  rw [outline] at houtline
  cases hparse : Toml.Table.parse text with
  | error fault =>
    rw [hparse] at houtline
    cases houtline
  | ok t =>
    rw [hparse] at houtline
    obtain rfl := Except.ok.inj houtline
    refine ⟨t, rfl, ?_⟩
    rw [Outline.ofToml] at hread
    cases hlist : arrayOfToml t Format.toml.environmentsKey with
    | none =>
      rw [hlist] at hread
      cases hread
    | some ws =>
      rw [hlist] at hread
      obtain ⟨helements, hall⟩ := elements_of_arrayOfToml hlist
      have hmake : Make (ws.map environmentOfToml) os := readEnvironments_eq_iff.1 hread
      have hkeeps := keepsLiterals_of_make (hall (Toml.Table.allEntries_of_parse hparse)) hmake
      rw [registerTables]
      exact helements ▸ hkeeps

set_option maxRecDepth 8000 in
/-- A number of five tokens and one of two, next to line ends of two characters and a comment. -/
theorem keepsLiterals_of_parse_composed :
    let text := "[[environment]]\nname='e'\n[[environment.register]]\nname='R'\r\n" ++
      "a = -1_0.5e+3 # n\r\nb=+inf"
    let os : List Observation := [⟨"e", "R", ⟨[("a", "-1_0.5e+3"), ("b", "+inf")]⟩⟩]
    (parse "c" text .toml).result = .ok os ∧
      ∃ t, Toml.Table.parse text = .ok t ∧
        List.Forall₂ (KeepsLiterals text) (registerTables t) os := by
  intro text os
  have hlexemes : lexemes text = Toml.placed 0
      [.leftBracket, .leftBracket, .word "environment".toList, .rightBracket, .rightBracket,
        .newline, .word "name".toList, .equals, .string ['e'] false, .newline,
        .leftBracket, .leftBracket, .word "environment".toList, .period, .word "register".toList,
        .rightBracket, .rightBracket, .newline,
        .word "name".toList, .equals, .string ['R'] false, .newline,
        .word ['a'], .blank, .equals, .blank, .word "-1_0".toList, .period, .word "5e".toList,
        .plus, .word ['3'], .blank, .comment, .newline,
        .word ['b'], .equals, .plus, .word "inf".toList] := by
    decide +kernel
  have hparse : (parse "c" text .toml).result = .ok os := by
    rw [parse, outline, Toml.Table.parse, hlexemes]
    cbv
  exact ⟨hparse, keepsLiterals_of_parse hparse⟩

end RegisterTables.Catalogue
