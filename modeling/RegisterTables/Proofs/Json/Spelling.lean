import RegisterTables.Json.Value
import RegisterTables.Proofs.Numeral
import Mathlib.Data.Char

/-!
# Spelling the characters of a JSON string

Between double quotes a character may stand for itself, or be written with a backslash and a letter,
or with the code of its own, or with the codes of two halves. `Json.Spells` says which spellings
there are, and a `Json.Spelling` chooses one for each character. Whatever is chosen, a string is
read back as it was (`Json.TextUnit.read?_spelled` and `Json.text?_units`).

A string is read in two steps. It is first cut into units, which are then put together, and a unit
that is a code may want the next one as its other half. So what is shown of a spelling is that it is
cut into units of its own, whatever follows it, and that these make the character, whatever units
follow them (`Json.Spells.exists_units`).
-/

namespace RegisterTables.Json

/-- Four hexadecimal digits of a code. -/
structure IsCode (digits : List Char) (n : ℕ) : Prop where
  /-- There are four. -/
  length_eq : digits.length = 4
  /-- They are digits. -/
  isDigit : ∀ d ∈ digits, Text.isDigitIn 16 d = true
  /-- They have that value. -/
  value_eq : Text.valueIn 16 digits = n

/-- The spellings of a character in a string. -/
inductive Spells : Char → List Char → Prop where
  /-- A character that is neither a control character nor a mark may stand for itself. -/
  | itself {c : Char} (hcontrol : 0x20 ≤ c.toNat) (hmark : c ≠ '"') (hescape : c ≠ '\\') :
      Spells c [c]
  /-- Some characters have a letter of their own. -/
  | letter {l c : Char} (h : TextUnit.ofEscape? l = some c) : Spells c ['\\', l]
  /-- The code of a character. -/
  | code {c : Char} {digits : List Char} (h : IsCode digits c.toNat) :
      Spells c ('\\' :: 'u' :: digits)
  /-- The codes of the two halves of a character. -/
  | pair {m n : ℕ} {lead trail : List Char} (hlead : IsCode lead m) (htrail : IsCode trail n)
      (hm : TextUnit.isLead m = true) (hn : TextUnit.isTrail n = true) :
      Spells (TextUnit.pair m n) ('\\' :: 'u' :: lead ++ '\\' :: 'u' :: trail)

/-- A choice of a spelling for each character. -/
structure Spelling where
  /-- The spelling of a character. -/
  ofChar : Char → List Char
  /-- It is one of those that the character has. -/
  spells : ∀ c, Spells c (ofChar c)

/-- A text as a string. -/
def Spelling.quoted (spelling : Spelling) (s : String) : List Char :=
  '"' :: s.toList.flatMap spelling.ofChar ++ ['"']

/-! ### The usual spelling -/

/-- The letter of a character, if the usual spelling has one for it. -/
def letterOf? (c : Char) : Option Char :=
  (['"', '\\', 'b', 'f', 'n', 'r', 't'].find? (TextUnit.ofEscape? · = some c))

/-- Marks and control characters are written with a letter where they have one, and other control
characters with their code. All else stands for itself. -/
def Spelling.standard : Spelling where
  ofChar c :=
    match letterOf? c with
    | some l => ['\\', l]
    | none => if 0x20 ≤ c.toNat then [c] else '\\' :: 'u' :: Text.shortDigits c.toNat
  spells c := by
    cases hl : letterOf? c with
    | some l => exact .letter (by simpa using List.find?_some hl)
    | none =>
      have hnot : ∀ l ∈ ['"', '\\', 'b', 'f', 'n', 'r', 't'], TextUnit.ofEscape? l ≠ some c := by
        simpa [letterOf?] using hl
      by_cases hcontrol : 0x20 ≤ c.toNat
      · simp only [hcontrol, if_true]
        refine .itself hcontrol ?_ ?_
        · rintro rfl
          exact hnot '"' (by decide) rfl
        · rintro rfl
          exact hnot '\\' (by decide) rfl
      · simp only [hcontrol, if_false]
        have hlt : c.toNat < 0x80 := by omega
        exact .code ⟨rfl, Text.isDigitIn_shortDigits hlt, Text.valueIn_shortDigits hlt⟩

/-! ### Reading spellings -/

namespace TextUnit

/-- Units in front of what else is read. -/
def prepend (us : List TextUnit) (r : Option (List TextUnit × List Char)) :
    Option (List TextUnit × List Char) :=
  r.map fun p => (us ++ p.1, p.2)

/-- A code is read as a unit. -/
theorem read?_code {digits : List Char} {n : ℕ} (h : IsCode digits n) (cs : List Char) :
    read? ('\\' :: 'u' :: (digits ++ cs)) = prepend [code n] (read? cs) := by
  obtain ⟨hlength, hdigits, hvalue⟩ := h
  obtain ⟨a, b, c, d, rfl⟩ : ∃ a b c d, digits = [a, b, c, d] := by
    match digits, hlength with
    | [a, b, c, d], _ => exact ⟨a, b, c, d, rfl⟩
  have hall : [a, b, c, d].all (Text.isDigitIn 16) = true := List.all_eq_true.2 hdigits
  show read? ('\\' :: 'u' :: a :: b :: c :: d :: cs) = _
  rw [read?, if_pos hall, hvalue]
  cases read? cs <;> rfl

/-- A character that may stand for itself is read as it is. -/
theorem read?_itself {c : Char} (hcontrol : 0x20 ≤ c.toNat) (hmark : c ≠ '"') (hescape : c ≠ '\\')
    (cs : List Char) : read? (c :: cs) = prepend [char c] (read? cs) := by
  have hallowed : ¬(c = '\\' ∨ c.toNat < 0x20) := by
    rintro (h | h)
    · exact hescape h
    · omega
  rw [read?]
  · rw [if_neg hallowed]
    cases read? cs <;> rfl
  -- Neither the closing mark nor an escape comes first.
  · exact hmark
  · intro _ _ _ _ _ h
    exact absurd h hescape
  · intro _ _ h
    exact absurd h hescape

/-- A letter behind a backslash is read as what it stands for. -/
theorem read?_letter {l c : Char} (h : ofEscape? l = some c) (cs : List Char) :
    read? ('\\' :: l :: cs) = prepend [char c] (read? cs) := by
  have hl : l ≠ 'u' := by
    rintro rfl
    simp [ofEscape?] at h
  rw [read?]
  · rw [h]
    cases read? cs <;> rfl
  · intro _ _ _ _ _ h
    exact absurd h hl

/-- The code of a character is neither half of a pair. -/
theorem isLead_isTrail_toNat (c : Char) : isLead c.toNat = false ∧ isTrail c.toNat = false := by
  have hvalid : c.toNat < 0xD800 ∨ 0xDFFF < c.toNat ∧ c.toNat < 0x110000 := c.valid
  constructor
  · rw [isLead, Bool.and_eq_false_iff, decide_eq_false_iff_not, decide_eq_false_iff_not]
    omega
  · rw [isTrail, Bool.and_eq_false_iff, decide_eq_false_iff_not, decide_eq_false_iff_not]
    omega

theorem decode?_char (c : Char) (us : List TextUnit) :
    decode? (char c :: us) = (decode? us).map (c :: ·) := by
  rw [decode?]
  cases decode? us <;> rfl

/-- The code of a character makes the character, even in front of another code. -/
theorem decode?_code (c : Char) (us : List TextUnit) :
    decode? (code c.toNat :: us) = (decode? us).map (c :: ·) := by
  obtain ⟨hlead, htrail⟩ := isLead_isTrail_toNat c
  -- A code looks at the next unit only to find its other half there.
  rcases us with - | ⟨d | n, us⟩
  · simp [decode?, hlead, htrail]
  · simp only [decode?, hlead, htrail, Char.ofNat_toNat]
    cases decode? us <;> rfl
  · rw [decode?, hlead, htrail, Char.ofNat_toNat]
    cases decode? (code n :: us) <;> rfl

/-- Two halves make their character. -/
theorem decode?_pair {m n : ℕ} (hm : isLead m = true) (hn : isTrail n = true)
    (us : List TextUnit) :
    decode? (code m :: code n :: us) = (decode? us).map (pair m n :: ·) := by
  rw [decode?, if_pos hm, if_pos hn]
  cases decode? us <;> rfl

end TextUnit

/-- **A spelling stands for its character.** It is cut into units of its own, whatever follows it,
and these make the character, whatever units follow them. -/
theorem Spells.exists_units {c : Char} {w : List Char} (h : Spells c w) :
    ∃ us : List TextUnit,
      (∀ cs, TextUnit.read? (w ++ cs) = TextUnit.prepend us (TextUnit.read? cs)) ∧
      ∀ vs, TextUnit.decode? (us ++ vs) = (TextUnit.decode? vs).map (c :: ·) := by
  cases h with
  | itself hcontrol hmark hescape =>
    exact ⟨[.char c], TextUnit.read?_itself hcontrol hmark hescape, TextUnit.decode?_char c⟩
  | letter h => exact ⟨[.char c], TextUnit.read?_letter h, TextUnit.decode?_char c⟩
  | code h => exact ⟨[.code c.toNat], TextUnit.read?_code h, TextUnit.decode?_code c⟩
  | @pair m n lead trail hlead htrail hm hn =>
    refine ⟨[.code m, .code n], ?_, TextUnit.decode?_pair hm hn⟩
    intro cs
    have hsecond := TextUnit.read?_code htrail cs
    rw [List.append_assoc, List.cons_append, List.cons_append, TextUnit.read?_code hlead]
    show TextUnit.prepend _ (TextUnit.read? ('\\' :: 'u' :: (trail ++ cs))) = _
    rw [hsecond]
    cases TextUnit.read? cs <;> rfl

/-! ### Strings -/

/-- The units that a spelled text is cut into. -/
def Spelling.units (spelling : Spelling) (s : String) : List TextUnit :=
  ((TextUnit.read? (s.toList.flatMap spelling.ofChar ++ ['"'])).map Prod.fst).getD []

theorem Spelling.exists_units (spelling : Spelling) (cs : List Char) :
    ∃ us : List TextUnit,
      (∀ rest, TextUnit.read? (cs.flatMap spelling.ofChar ++ '"' :: rest) = some (us, rest)) ∧
      TextUnit.decode? us = some cs := by
  induction cs with
  | nil =>
    refine ⟨[], ?_, rfl⟩
    intro rest
    rw [List.flatMap_nil, List.nil_append, TextUnit.read?]
  | cons c cs ih =>
    obtain ⟨us, hread, hdecode⟩ := ih
    obtain ⟨vs, hreadc, hdecodec⟩ := (spelling.spells c).exists_units
    refine ⟨vs ++ us, ?_, ?_⟩
    · intro rest
      rw [List.flatMap_cons, List.append_assoc, hreadc, hread]
      rfl
    · rw [hdecodec, hdecode]
      rfl

/-- **A spelled text is read up to the closing mark.** -/
theorem TextUnit.read?_spelled (spelling : Spelling) (s : String) (rest : List Char) :
    read? (s.toList.flatMap spelling.ofChar ++ '"' :: rest) = some (spelling.units s, rest) := by
  obtain ⟨us, hread, -⟩ := spelling.exists_units s.toList
  rw [Spelling.units, hread, hread]
  rfl

/-- **The units of a spelled text** make the text. -/
theorem text?_units (spelling : Spelling) (s : String) : text? (spelling.units s) = some s := by
  obtain ⟨us, hread, hdecode⟩ := spelling.exists_units s.toList
  rw [Spelling.units, hread, text?]
  show (TextUnit.decode? us).map String.ofList = some s
  rw [hdecode, Option.map_some, String.ofList_toList]

end RegisterTables.Json
