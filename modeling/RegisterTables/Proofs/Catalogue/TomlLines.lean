import RegisterTables.Proofs.Catalogue.TomlText
import RegisterTables.Proofs.Toml.Grammar

/-!
# Catalogues as TOML documents

The tokens of a catalogue follow the grammar, and each paragraph becomes a block: the header of an
element with the parts that lead to it, and an entry for each line
(`Catalogue.ofLexemes_paragraphs`). The keys of a block keep the places of their lines, which
ascend.

The fuel of the reader of lines only has to last as long as there are lines, so it is enough that it
is not below the number of tokens.
-/

namespace RegisterTables.Catalogue

open Toml (Token Lexeme Key Expr Body Block placed)

/-! ### One line -/

/-- The entries of lines, the first of which starts at token `n`. -/
def bodyFrom (n : ℕ) : List (String × String) → Body
  | [] => []
  | (key, value) :: entries => (⟨key, n⟩, .string value) :: bodyFrom (n + 6) entries

/-- A line with a key, written as a word or as a string, is read as an entry. -/
theorem entry_placed {t : Token} {key : String}
    (ht : t = .word key.toList ∨ t = .string key.toList false) (value : String) (body : Body)
    (n : ℕ) (ts : List Token) :
    Toml.entry body (placed n (entryTokens t value ++ ts))
      = .ok (body ++ [(⟨key, n⟩, .string value)], placed (n + 6) ts) := by
  have hkey (rest : List Lexeme) :
      Toml.keyPath (⟨t, n⟩ :: ⟨.blank, n + 1⟩ :: ⟨.equals, n + 2⟩ :: rest)
        = .ok ([⟨key, n⟩], ⟨.equals, n + 2⟩ :: rest) := by
    rcases ht with rfl | rfl <;> simp [Toml.keyPath, Toml.keyPathAfter]
  show Toml.entry body (⟨t, n⟩ :: ⟨.blank, n + 1⟩ :: ⟨.equals, n + 2⟩ :: ⟨.blank, n + 3⟩ ::
    ⟨.string value.toList false, n + 4⟩ :: ⟨.newline, n + 5⟩ :: placed (n + 6) ts) = _
  rw [Toml.entry, hkey]
  simp only [bind, Except.bind, Toml.expect_self, Toml.skipBlank]
  rw [Toml.value_string (by simp), String.ofList_toList]
  rfl

/-- A line with a key and a text adds an entry to the block. -/
theorem lines_entryTokens {t : Token} {key : String}
    (ht : t = .word key.toList ∨ t = .string key.toList false) (value : String) (fuel : ℕ)
    (block : Block) (n : ℕ) (ts : List Token) :
    Toml.lines (fuel + 1) block (placed n (entryTokens t value ++ ts))
      = Toml.lines fuel { block with body := block.body ++ [(⟨key, n⟩, .string value)] }
          (placed (n + 6) ts) := by
  have hentry := entry_placed ht value block.body n ts
  refine Toml.lines_of_entry ?_ (by simp [entryTokens]) ?_ hentry fuel
  · rcases ht with rfl | rfl <;> rfl
  · -- A key is no bracket.
    intro m ts' h
    have htoken : t = .leftBracket := by
      simpa [entryTokens] using congrArg (fun l => l.head?.map Lexeme.token) h
    rcases ht with rfl | rfl <;> simp at htoken

/-- Lines with fields add their entries to the block. -/
theorem lines_fieldTokens (fields : List (String × String)) (fuel : ℕ) (block : Block) (n : ℕ)
    (ts : List Token) :
    Toml.lines (fuel + fields.length) block (placed n (Paragraph.fieldTokens fields ++ ts))
      = Toml.lines fuel { block with body := block.body ++ bodyFrom n fields }
          (placed (n + 6 * fields.length) ts) := by
  induction fields generalizing n block with
  | nil => rw [bodyFrom, List.append_nil]; rfl
  | cons f fields ih =>
    have hlength : n + 6 + 6 * fields.length = n + 6 * (fields.length + 1) := by omega
    rw [Paragraph.fieldTokens, List.flatMap_cons, List.append_assoc, List.length_cons,
      ← Nat.add_assoc, lines_entryTokens (.inr rfl)]
    rw [← Paragraph.fieldTokens, ih, hlength, bodyFrom, List.append_assoc, List.singleton_append]

/-! ### One paragraph -/

namespace Paragraph

/-- The parts of the header whose first token is at `n`. -/
def path (n : ℕ) : Paragraph → List Key
  | environment _ => [⟨"environment", n + 2⟩]
  | register _ _ => [⟨"environment", n + 2⟩, ⟨"register", n + 4⟩]

/-- The block of the paragraph whose first token is at `n`. -/
def block (n : ℕ) (p : Paragraph) : Block where
  path := p.path n
  isElement := true
  body := bodyFrom (n + p.headerTokens.length) (("name", p.name) :: p.fields)

/-- The header begins a new element. -/
theorem lines_headerTokens (p : Paragraph) (fuel : ℕ) (before : Block) (n : ℕ) (ts : List Token) :
    Toml.lines (fuel + 1) before (placed n (p.headerTokens ++ ts))
      = (Toml.lines fuel ⟨p.path n, true, []⟩ (placed (n + p.headerTokens.length) ts)).map
          (before :: ·) := by
  cases p with
  | environment label =>
    have hheader : Toml.header (⟨.leftBracket, n + 1⟩ :: ⟨.word "environment".toList, n + 2⟩ ::
        ⟨.rightBracket, n + 3⟩ :: ⟨.rightBracket, n + 4⟩ :: ⟨.newline, n + 5⟩ :: placed (n + 6) ts)
        = .ok (⟨(environment label).path n, true, []⟩, placed (n + 6) ts) := by
      simp only [Toml.header, Toml.keyPath, Toml.keyPathAfter, bind, Except.bind]
      rfl
    exact Toml.lines_of_header hheader fuel before n
  | register name fields =>
    have hheader : Toml.header (⟨.leftBracket, n + 1⟩ :: ⟨.word "environment".toList, n + 2⟩ ::
        ⟨.period, n + 3⟩ :: ⟨.word "register".toList, n + 4⟩ :: ⟨.rightBracket, n + 5⟩ ::
        ⟨.rightBracket, n + 6⟩ :: ⟨.newline, n + 7⟩ :: placed (n + 8) ts)
        = .ok (⟨(register name fields).path n, true, []⟩, placed (n + 8) ts) := by
      simp only [Toml.header, Toml.keyPath, Toml.keyPathAfter, bind, Except.bind]
      rfl
    exact Toml.lines_of_header hheader fuel before n

/-- A line takes six tokens. -/
theorem length_fieldTokens (fields : List (String × String)) :
    (fieldTokens fields).length = 6 * fields.length := by
  induction fields with
  | nil => rfl
  | cons f fields ih =>
    rw [fieldTokens, List.flatMap_cons, List.length_append, ← fieldTokens, ih, List.length_cons]
    simp only [entryTokens, List.length_cons, List.length_nil]
    omega

theorem length_tokens (p : Paragraph) :
    p.tokens.length = p.headerTokens.length + 6 + 6 * p.fields.length := by
  rw [tokens, List.length_append, List.length_append, length_fieldTokens]
  rfl

/-- A paragraph makes a block of its own, and takes a line for its header, its name and each of its
fields. -/
theorem lines_tokens (p : Paragraph) (fuel : ℕ) (before : Block) (n : ℕ) (ts : List Token) :
    Toml.lines (fuel + p.fields.length + 2) before (placed n (p.tokens ++ ts))
      = (Toml.lines fuel (p.block n) (placed (n + p.tokens.length) ts)).map (before :: ·) := by
  have hlength : n + p.tokens.length = n + p.headerTokens.length + 6 + 6 * p.fields.length := by
    rw [length_tokens]
    omega
  rw [tokens, List.append_assoc, List.append_assoc, lines_headerTokens,
    lines_entryTokens (.inl rfl), lines_fieldTokens, ← hlength]
  rfl

end Paragraph

/-! ### The document -/

/-- The blocks of paragraphs, the first of which starts at token `n`. -/
def blocksFrom (n : ℕ) : List Paragraph → List Block
  | [] => []
  | p :: ps => p.block n :: blocksFrom (n + p.tokens.length) ps

/-- Paragraphs are read as their blocks if the fuel is not below the number of tokens. -/
theorem lines_paragraphs (ps : List Paragraph) (fuel : ℕ) (before : Block) (n : ℕ)
    (hfuel : (ps.flatMap Paragraph.tokens).length ≤ fuel) :
    Toml.lines fuel before (placed n (ps.flatMap Paragraph.tokens))
      = .ok (before :: blocksFrom n ps) := by
  induction ps generalizing fuel before n with
  | nil =>
    cases fuel with
    | zero => rfl
    | succ fuel => rfl
  | cons p ps ih =>
    have htokens := p.length_tokens
    rw [List.flatMap_cons, List.length_append] at hfuel
    obtain ⟨rest, rfl⟩ : ∃ rest, fuel = rest + p.fields.length + 2 :=
      ⟨fuel - (p.fields.length + 2), by omega⟩
    rw [List.flatMap_cons, Paragraph.lines_tokens, ih _ _ _ (by omega)]
    rfl

/-- **The document of a catalogue** consists of the blocks of its paragraphs. -/
theorem ofLexemes_paragraphs (ps : List Paragraph) :
    Toml.Document.ofLexemes (placed 0 (ps.flatMap Paragraph.tokens))
      = .ok ⟨[], blocksFrom 0 ps⟩ := by
  rw [Toml.Document.ofLexemes, lines_paragraphs ps _ _ 0 (by rw [Toml.length_placed]; omega)]
  rfl

end RegisterTables.Catalogue
