import RegisterTables.Catalogue.Format
import RegisterTables.Proofs.Path
import Mathlib.Data.List.Forall2
import Mathlib.Data.String.Basic

/-!
# Which paths are taken for JSON

The format of a file is told from its path alone. `Catalogue.Format.ofPath_eq_json_iff` gives the
grammar of the paths that are taken for JSON: a directory, a name that ends in the extension, and
after it nothing but slashes and slashes with a single period. All other paths are taken for TOML.

The directory and what follows the name come from the grammar of paths
(`Path.fileName?_eq_some_iff`), and the extension from that of names (`Path.extension?_eq_some_iff`).
What is left are the letters of the extension, each of which may be of either case
(`Catalogue.Format.map_toLower_eq_iff`).
-/

namespace RegisterTables.Catalogue.Format

/-- The letters of the extension, each in either case. -/
def jsonLetters : List (List Char) :=
  [['j', 'J'], ['s', 'S'], ['o', 'O'], ['n', 'N']]

/-- The path names a JSON file. -/
structure IsJsonPath (path dir stem extension : String) (tail : List String) : Prop where
  /-- The path is made of these, and a period stands in front of the extension. -/
  path_eq : path = dir ++ stem ++ "." ++ extension ++ String.join tail
  /-- If there is a directory, it ends in a slash. -/
  dir_ends : dir = "" ∨ ∃ parent, dir = parent ++ "/"
  /-- Something stands in front of the period. -/
  stem_ne : stem ≠ ""
  /-- There is no slash in it. -/
  slash_notMem : '/' ∉ stem.toList
  /-- The extension has the letters of `json`, each in either case. -/
  extension_eq : List.Forall₂ (· ∈ ·) extension.toList jsonLetters
  /-- What follows is made of slashes and of slashes with a period. -/
  tail_eq : ∀ piece ∈ tail, piece = "/" ∨ piece = "/."

theorem toNat_toLower (c : Char) :
    c.toLower.toNat = if 65 ≤ c.toNat ∧ c.toNat ≤ 90 then c.toNat + 32 else c.toNat := by
  have hrange : (c.val ≥ 'A'.val ∧ c.val ≤ 'Z'.val) ↔ 65 ≤ c.toNat ∧ c.toNat ≤ 90 := by
    rw [ge_iff_le, UInt32.le_iff_toNat_le, UInt32.le_iff_toNat_le]
    exact Iff.rfl
  unfold Char.toLower
  by_cases h : c.val ≥ 'A'.val ∧ c.val ≤ 'Z'.val
  · have hbounds := hrange.1 h
    rw [dif_pos h, if_pos hbounds]
    show (c.val + 32).toNat = c.val.toNat + 32
    have hsmall : c.val.toNat ≤ 90 := hbounds.2
    rw [UInt32.toNat_add]
    show (c.val.toNat + 32) % 4294967296 = _
    omega
  · rw [dif_neg h, if_neg (mt hrange.2 h)]

/-- The two letters of a pair are turned into the small one, and no other character is. -/
theorem toLower_eq_iff {small large : Char} (hsmall : 97 ≤ small.toNat ∧ small.toNat ≤ 122)
    (hpair : small.toNat = large.toNat + 32) (c : Char) :
    c.toLower = small ↔ c ∈ [small, large] := by
  have hlower := toNat_toLower c
  rw [List.mem_cons, List.mem_singleton, ← Char.toNat_inj, ← Char.toNat_inj, ← Char.toNat_inj]
  split_ifs at hlower <;> omega

/-- The extension is compared letter by letter. -/
theorem map_toLower_eq_iff (extension : List Char) :
    extension.map Char.toLower = ['j', 's', 'o', 'n'] ↔
      List.Forall₂ (· ∈ ·) extension jsonLetters := by
  have hj : ∀ c : Char, c.toLower = 'j' ↔ c ∈ ['j', 'J'] := toLower_eq_iff (by decide) (by decide)
  have hs : ∀ c : Char, c.toLower = 's' ↔ c ∈ ['s', 'S'] := toLower_eq_iff (by decide) (by decide)
  have ho : ∀ c : Char, c.toLower = 'o' ↔ c ∈ ['o', 'O'] := toLower_eq_iff (by decide) (by decide)
  have hn : ∀ c : Char, c.toLower = 'n' ↔ c ∈ ['n', 'N'] := toLower_eq_iff (by decide) (by decide)
  rw [← List.forall₂_eq_eq_eq, List.forall₂_map_left_iff]
  simp only [jsonLetters, List.forall₂_cons_right_iff, List.forall₂_nil_right_iff, hj, hs, ho, hn]

/-- What follows a name is made of idle parts, each with a slash in front of it. -/
theorem exists_tail_iff {cs : List Char} :
    (∃ tail : List String, (∀ piece ∈ tail, piece = "/" ∨ piece = "/.") ∧
      (String.join tail).toList = cs) ↔
      ∃ after : List (List Char), (∀ part ∈ after, Path.isIdle part = true) ∧
        after.flatMap ('/' :: ·) = cs := by
  constructor
  · rintro ⟨tail, htail, rfl⟩
    refine ⟨tail.map fun piece => piece.toList.tail, ?_, ?_⟩
    · intro part hpart
      obtain ⟨piece, hpiece, rfl⟩ := List.mem_map.1 hpart
      rcases htail piece hpiece with rfl | rfl <;> decide
    · rw [String.toList_join, List.flatMap_map]
      apply List.flatMap_congr
      intro piece hpiece
      rcases htail piece hpiece with rfl | rfl <;> rfl
  · rintro ⟨after, hafter, rfl⟩
    refine ⟨after.map fun part => String.ofList ('/' :: part), ?_, ?_⟩
    · intro piece hpiece
      obtain ⟨part, hpart, rfl⟩ := List.mem_map.1 hpiece
      rcases Path.isIdle_iff.1 (hafter part hpart) with rfl | rfl
      · exact .inl rfl
      · exact .inr rfl
    · rw [String.toList_join, List.flatMap_map]
      apply List.flatMap_congr
      intro part _
      exact String.toList_ofList

/-- If there is a directory, it ends in a slash. -/
theorem dir_ends_iff {dir : String} :
    (dir = "" ∨ ∃ parent, dir = parent ++ "/") ↔
      dir.toList = [] ∨ ∃ parent, dir.toList = parent ++ ['/'] := by
  constructor
  · rintro (rfl | ⟨parent, rfl⟩)
    · exact .inl rfl
    · exact .inr ⟨parent.toList, String.toList_append⟩
  · rintro (hdir | ⟨parent, hdir⟩)
    · exact .inl (String.toList_inj.1 hdir)
    · refine .inr ⟨String.ofList parent, String.toList_inj.1 ?_⟩
      rw [hdir, String.toList_append, String.toList_ofList]
      rfl

/-- The extension has no characters but those letters. -/
theorem mem_flatten_of_forall₂ {extension : List Char} {letters : List (List Char)}
    (h : List.Forall₂ (· ∈ ·) extension letters) : ∀ c ∈ extension, c ∈ letters.flatten := by
  induction h with
  | nil => exact List.forall_mem_nil _
  | cons hc _ ih =>
    rw [List.flatten_cons]
    refine List.forall_mem_cons.2 ⟨List.mem_append_left _ hc, ?_⟩
    intro c hmem
    exact List.mem_append_right _ (ih c hmem)

namespace IsJsonPath

variable {path dir stem extension : String} {tail : List String}

/-- Such a path leads to a file of that name. -/
theorem fileName?_eq (h : IsJsonPath path dir stem extension tail) :
    Path.fileName? path.toList = some (stem.toList ++ '.' :: extension.toList) := by
  obtain ⟨after, hafter, htail⟩ := exists_tail_iff.1 ⟨tail, h.tail_eq, rfl⟩
  have hextension : extension.toList.length = 4 := h.extension_eq.length_eq
  have hlength : 5 ≤ (stem.toList ++ '.' :: extension.toList).length := by
    rw [List.length_append, List.length_cons]
    omega
  have hpath : path.toList = dir.toList ++
      (stem.toList ++ '.' :: extension.toList ++ after.flatMap ('/' :: ·)) := by
    rw [h.path_eq, htail]
    simp [String.toList_append]
  have hslash : '/' ∉ stem.toList ++ '.' :: extension.toList := by
    have hletters : '/' ∉ extension.toList := fun hmem =>
      absurd (mem_flatten_of_forall₂ h.extension_eq _ hmem) (by decide)
    rw [List.mem_append, List.mem_cons, not_or, not_or]
    exact ⟨h.slash_notMem, by decide, hletters⟩
  rw [Path.fileName?_eq_some_iff]
  refine ⟨?_, ?_, dir.toList, after, hpath, dir_ends_iff.1 h.dir_ends, hslash, hafter⟩
  · intro hback
    rw [hback] at hlength
    exact absurd hlength (by decide)
  · rw [← Bool.not_eq_true, Path.isIdle_iff, not_or]
    constructor <;> intro hidle <;> rw [hidle] at hlength <;> exact absurd hlength (by decide)

/-- The name has that extension. -/
theorem extension?_eq (h : IsJsonPath path dir stem extension tail) :
    Path.extension? (stem.toList ++ '.' :: extension.toList) = some extension.toList := by
  rw [Path.extension?_eq_some_iff]
  refine ⟨?_, stem.toList, ?_, rfl⟩
  · intro hmem
    exact absurd (mem_flatten_of_forall₂ h.extension_eq _ hmem) (by decide)
  · intro hnil
    exact h.stem_ne (String.toList_inj.1 hnil)

end IsJsonPath

/-- A path that leads to a name with the extension is cut up at the name and its period. -/
theorem exists_isJsonPath {path : String} {name extension : List Char}
    (hname : Path.fileName? path.toList = some name)
    (hextension : Path.extension? name = some extension)
    (hletters : List.Forall₂ (· ∈ ·) extension jsonLetters) :
    ∃ dir stem extension tail, IsJsonPath path dir stem extension tail := by
  obtain ⟨-, -, dir, after, hends⟩ := Path.fileName?_eq_some_iff.1 hname
  obtain ⟨-, stem, hstem, rfl⟩ := Path.extension?_eq_some_iff.1 hextension
  obtain ⟨tail, htail, hafter⟩ := exists_tail_iff.2 ⟨after, hends.after_idle, rfl⟩
  refine ⟨String.ofList dir, String.ofList stem, String.ofList extension, tail, ?_⟩
  constructor
  · apply String.toList_inj.1
    rw [hends.path_eq, ← hafter]
    simp [String.toList_append]
  · apply dir_ends_iff.2
    rw [String.toList_ofList]
    exact hends.dir_ends
  · intro hempty
    apply hstem
    rw [← String.toList_ofList (l := stem), hempty]
    rfl
  · rw [String.toList_ofList]
    intro hmem
    exact hends.slash_notMem (List.mem_append_left _ hmem)
  · rw [String.toList_ofList]
    exact hletters
  · exact htail

/-- **The format of a file** is JSON if the path names a JSON file, and TOML in every other case. -/
theorem ofPath_eq_json_iff (path : String) :
    (ofPath path = .json ↔ ∃ dir stem extension tail, IsJsonPath path dir stem extension tail) ∧
    (ofPath path = .toml ↔
      ¬ ∃ dir stem extension tail, IsJsonPath path dir stem extension tail) := by
  have hjson : ofPath path = .json ↔
      ∃ dir stem extension tail, IsJsonPath path dir stem extension tail := by
    unfold ofPath
    constructor
    · intro h
      split at h
      · rename_i extension hfound
        obtain ⟨name, hname, hextension⟩ := Option.bind_eq_some_iff.1 hfound
        split_ifs at h with hletters
        exact exists_isJsonPath hname hextension ((map_toLower_eq_iff extension).1 hletters)
      · cases h
    · rintro ⟨dir, stem, extension, tail, h⟩
      rw [h.fileName?_eq, Option.bind_some, h.extension?_eq]
      exact if_pos ((map_toLower_eq_iff _).2 h.extension_eq)
  refine ⟨hjson, ?_⟩
  rw [← hjson]
  cases ofPath path <;> decide

example : ofPath "a.toml/..Json//./" = .json := by decide

example : ofPath "a/.json" = .toml := by decide

end RegisterTables.Catalogue.Format
