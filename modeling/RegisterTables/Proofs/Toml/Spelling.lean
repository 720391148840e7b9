import RegisterTables.Proofs.Numeral
import RegisterTables.Toml.Quote
import Mathlib.Data.Char

/-!
# Spelling the characters of a basic string

Between double quotes a character may stand for itself, or be written with a backslash and a letter,
or with a backslash and its code. `Toml.Spells` says which spellings there are, and a
`Toml.Spelling` chooses one for each character. Whatever is chosen, a string is read back as it was
(`Toml.Quote.read_quoted`): a spelling starts with no quote, so the first quote that is met as a
character closes the string.
-/

namespace RegisterTables.Toml

/-- The letters that may follow a backslash, with the characters that they stand for. -/
def escapeLetters : List (Char × Char) :=
  [('"', '"'), ('\\', '\\'), ('b', '\x08'), ('f', '\x0c'), ('n', '\n'), ('r', '\r'), ('t', '\t')]

/-- The spellings of a character in a basic string. -/
inductive Spells : Char → List Char → Prop where
  /-- A character that is neither a control character nor a mark may stand for itself. -/
  | itself {c : Char} (hallows : Quote.allows c = true) (hmark : c ≠ '"') (hescape : c ≠ '\\') :
      Spells c [c]
  /-- Some characters have a letter of their own. -/
  | letter {l c : Char} (h : (l, c) ∈ escapeLetters) : Spells c ['\\', l]
  /-- A code of four digits. -/
  | shortCode {c : Char} {digits : List Char} (hlength : digits.length = 4)
      (hdigits : ∀ d ∈ digits, Text.isDigitIn 16 d = true)
      (hvalue : Text.valueIn 16 digits = c.toNat) : Spells c ('\\' :: 'u' :: digits)
  /-- A code of eight digits. -/
  | longCode {c : Char} {digits : List Char} (hlength : digits.length = 8)
      (hdigits : ∀ d ∈ digits, Text.isDigitIn 16 d = true)
      (hvalue : Text.valueIn 16 digits = c.toNat) : Spells c ('\\' :: 'U' :: digits)

/-- A choice of a spelling for each character. -/
structure Spelling where
  /-- The spelling of a character. -/
  ofChar : Char → List Char
  /-- It is one of those that the character has. -/
  spells : ∀ c, Spells c (ofChar c)

/-- A text as a basic string. -/
def Spelling.quoted (spelling : Spelling) (s : String) : List Char :=
  '"' :: s.toList.flatMap spelling.ofChar ++ ['"']

/-! ### The usual spelling -/

/-- The character in front of which a backslash is enough, or whose letter is known. -/
def letterOf? (c : Char) : Option Char :=
  (escapeLetters.find? (·.2 = c)).map Prod.fst

/-- Marks and control characters are written with a letter where they have one, and other control
characters with their code. All else stands for itself. -/
def Spelling.standard : Spelling where
  ofChar c :=
    match letterOf? c with
    | some l => ['\\', l]
    | none => if Quote.allows c then [c] else '\\' :: 'u' :: Text.shortDigits c.toNat
  spells c := by
    cases hl : letterOf? c with
    | some l =>
      obtain ⟨p, hp, rfl⟩ := Option.map_eq_some_iff.1 hl
      have hc : p.2 = c := by simpa using List.find?_some hp
      exact .letter (hc ▸ List.mem_of_find?_eq_some hp)
    | none =>
      have hnot : ∀ p ∈ escapeLetters, p.2 ≠ c := by
        simpa [letterOf?] using hl
      by_cases hallows : Quote.allows c = true
      · simp only [hallows, if_true]
        exact .itself hallows (fun h => hnot ('"', '"') (by decide) h.symm)
          fun h => hnot ('\\', '\\') (by decide) h.symm
      · simp only [hallows]
        have hlt : c.toNat < 0x80 := by
          by_contra hge
          refine hallows ?_
          have hne : c ≠ '\x7f' := fun h => hge (h ▸ by decide)
          simp only [Quote.allows, Bool.or_eq_true, Bool.and_eq_true, decide_eq_true_eq,
            bne_iff_ne]
          exact .inr ⟨by omega, hne⟩
        exact .shortCode rfl (Text.isDigitIn_shortDigits hlt) (Text.valueIn_shortDigits hlt)

/-! ### Reading spellings -/

namespace Spells

variable {c : Char} {w : List Char}

/-- A spelling starts with some character other than the closing mark. -/
theorem exists_cons (h : Spells c w) : ∃ d ds, w = d :: ds ∧ d ≠ '"' := by
  cases h with
  | itself _ hmark _ => exact ⟨_, _, rfl, hmark⟩
  | letter _ => exact ⟨_, _, rfl, by decide⟩
  | shortCode _ _ _ => exact ⟨_, _, rfl, by decide⟩
  | longCode _ _ _ => exact ⟨_, _, rfl, by decide⟩

/-- No spelling holds a carriage return. -/
theorem carriageReturn_notMem (h : Spells c w) : '\r' ∉ w := by
  have hdigit {digits : List Char} (hdigits : ∀ d ∈ digits, Text.isDigitIn 16 d = true) :
      '\r' ∉ digits := fun hmem => absurd (hdigits _ hmem) (by decide)
  cases h with
  | itself hallows _ _ =>
    rw [List.mem_singleton]
    rintro rfl
    exact absurd hallows (by decide)
  | letter h =>
    intro hmem
    have hl : ∀ p ∈ escapeLetters, p.1 ≠ '\r' := by decide
    simp only [List.mem_cons, List.not_mem_nil, or_false] at hmem
    rcases hmem with hmem | hmem
    · exact absurd hmem (by decide)
    · exact hl _ h hmem.symm
  | shortCode _ hdigits _ => simpa using hdigit hdigits
  | longCode _ hdigits _ => simpa using hdigit hdigits

end Spells

namespace Quote

/-- A run of hexadecimal digits is read in full. -/
theorem hexCode_append (digits rest : List Char) (code : ℕ)
    (h : ∀ d ∈ digits, Text.isDigitIn 16 d = true) :
    hexCode digits.length code (digits ++ rest)
      = .ok (digits.foldl (fun n c => 16 * n + (Text.digitValue? c).getD 0) code, rest) := by
  induction digits generalizing code with
  | nil => rfl
  | cons d digits ih =>
    obtain ⟨v, hv⟩ : ∃ v, Text.digitValue? d = some v := by
      have hd := h d List.mem_cons_self
      unfold Text.isDigitIn at hd
      cases hv : Text.digitValue? d with
      | none => simp [hv] at hd
      | some v => exact ⟨v, rfl⟩
    rw [List.length_cons, List.cons_append, hexCode, hv, List.foldl_cons, hv]
    exact ih _ fun e he => h e (List.mem_cons_of_mem _ he)

/-- A code is read as its character. -/
theorem codedChar_append {c : Char} {digits : List Char} (rest : List Char)
    (hdigits : ∀ d ∈ digits, Text.isDigitIn 16 d = true)
    (hvalue : Text.valueIn 16 digits = c.toNat) :
    codedChar digits.length (digits ++ rest) = .ok (c, rest) := by
  have hcode : hexCode digits.length 0 (digits ++ rest) = .ok (c.toNat, rest) := by
    rw [hexCode_append digits rest 0 hdigits, ← hvalue]
    rfl
  have hvalid : c.toNat.isValidChar := c.valid
  rw [codedChar, hcode]
  simp only [hvalid, if_true, Char.ofNat_toNat]

/-- A backslash and what it stands for put one character in front. -/
theorem content_escape {c : Char} {cs rest : List Char}
    (h : escape false cs = .ok (some c, rest)) :
    content .basic false ('\\' :: cs) = prepend c (content .basic false rest) := by
  rw [content]
  simp only [mark, and_true]
  rw [if_neg (by decide), if_neg (by decide), if_pos trivial]
  split
  · next fault hfault => simp [h] at hfault
  · next d tail hd =>
    rw [h, Except.ok.injEq, Prod.mk.injEq, Option.some.injEq] at hd
    rw [hd.1, hd.2]
  · next tail hnone => simp [h] at hnone

/-- A spelling is read as its character. -/
theorem content_spelling {c : Char} {w : List Char} (h : Spells c w) (cs : List Char) :
    content .basic false (w ++ cs) = prepend c (content .basic false cs) := by
  cases h with
  | itself hallows hmark hescape =>
    have hnewline : c ≠ '\n' := by
      rintro rfl
      exact absurd hallows (by decide)
    rw [List.singleton_append, content]
    simp only [mark, hmark, hnewline, hescape, hallows, if_false, if_true, false_and]
  | letter h =>
    refine content_escape ?_
    simp only [escapeLetters, List.mem_cons, List.not_mem_nil, Prod.mk.injEq, or_false] at h
    rcases h with ⟨rfl, rfl⟩ | ⟨rfl, rfl⟩ | ⟨rfl, rfl⟩ | ⟨rfl, rfl⟩ | ⟨rfl, rfl⟩ | ⟨rfl, rfl⟩ |
      ⟨rfl, rfl⟩ <;> rfl
  | @shortCode _ digits hlength hdigits hvalue =>
    refine content_escape ?_
    have hcoded := codedChar_append cs hdigits hvalue
    rw [hlength] at hcoded
    show escape false ('u' :: (digits ++ cs)) = _
    simp only [escape]
    rw [hcoded]
    rfl
  | @longCode _ digits hlength hdigits hvalue =>
    refine content_escape ?_
    have hcoded := codedChar_append cs hdigits hvalue
    rw [hlength] at hcoded
    show escape false ('U' :: (digits ++ cs)) = _
    simp only [escape]
    rw [hcoded]
    rfl

/-- A spelled text is read up to the closing mark. -/
theorem content_spelled (spelling : Spelling) (cs rest : List Char) :
    content .basic false (cs.flatMap spelling.ofChar ++ '"' :: rest) = .ok (cs, rest) := by
  induction cs with
  | nil =>
    rw [List.flatMap_nil, List.nil_append, content]
    simp only [mark, if_true]
    rfl
  | cons c cs ih =>
    rw [List.flatMap_cons, List.append_assoc, content_spelling (spelling.spells c), ih]
    rfl

/-- **A basic string is read back.** No further mark may follow the closing one, since three marks
open a string of several lines. -/
theorem read_quoted (spelling : Spelling) (cs : List Char) {rest : List Char}
    (hrest : rest.head? ≠ some '"') :
    read .basic (cs.flatMap spelling.ofChar ++ '"' :: rest) = .ok ((cs, false), rest) := by
  have hcloses : closes '"' (cs.flatMap spelling.ofChar ++ '"' :: rest) = false := by
    cases cs with
    | nil =>
      cases rest with
      | nil => rfl
      | cons d rest =>
        have hd : d ≠ '"' := by simpa using hrest
        simp [closes, hd]
    | cons c cs =>
      obtain ⟨d, ds, hw, hd⟩ := (spelling.spells c).exists_cons
      rw [List.flatMap_cons, hw]
      cases hds : (d :: ds ++ cs.flatMap spelling.ofChar ++ '"' :: rest) with
      | nil => rfl
      | cons a as =>
        have ha : a = d := by simpa using (congrArg List.head? hds).symm
        cases as with
        | nil => rfl
        | cons b as => simp [closes, ha, hd]
  rw [read]
  simp only [mark, hcloses, content_spelled]
  rfl

end Quote

end RegisterTables.Toml
