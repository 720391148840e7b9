import RegisterTables.Proofs.Toml.Lexing
import RegisterTables.Catalogue.Format
import RegisterTables.Observation

/-!
# Catalogues as TOML texts

What is to be written is a list of environments with their registers, each with named values. The
text has a paragraph for each environment and each register: a header, a line with the name, and a
line for each field. `Catalogue.ofText_tomlText` says which tokens the text is cut into, for any
spelling of the strings.
-/

namespace RegisterTables.Catalogue

open Toml (Spelling Token)

/-! ### What is written -/

/-- A register with its fields, none of which is named twice or called as the name is. -/
structure RegisterRecord where
  /-- The name of the register. -/
  name : String
  /-- The fields with their values. -/
  fields : List (String × String)
  /-- The fields have names of their own. -/
  nodup : (fields.map Prod.fst).Nodup
  /-- No field takes the place of the name. -/
  nameKey_notMem : nameKey ∉ fields.map Prod.fst

/-- An environment with its registers, of which there may be none. -/
structure EnvironmentRecord where
  /-- The label of the environment. -/
  label : String
  /-- The registers, in order. -/
  registers : List RegisterRecord

/-- The observation that a register of an environment is. -/
def RegisterRecord.observation (label : String) (r : RegisterRecord) : Observation :=
  ⟨label, r.name, ⟨r.fields⟩⟩

/-- The observations of environments, in order. -/
def recordedObservations (es : List EnvironmentRecord) : List Observation :=
  es.flatMap fun e => e.registers.map (RegisterRecord.observation e.label)

/-! ### Lines -/

/-- A line with a key and a value. -/
def entryLine (key value : List Char) : List Char :=
  key ++ " = ".toList ++ value ++ ['\n']

/-- The tokens of a line with a key and a text. -/
def entryTokens (key : Token) (value : String) : List Token :=
  [key, .blank, .equals, .blank, .string value.toList false, .newline]

/-- What follows a key is cut into tokens of its own. -/
theorem ofChars_afterKey (spelling : Spelling) (value : String) (rest : List Char) :
    Token.ofChars (" = ".toList ++ spelling.quoted value ++ ['\n'] ++ rest)
      = [.blank, .equals, .blank, .string value.toList false, .newline] ++ Token.ofChars rest := by
  have hend : ('\n' :: rest).head? ≠ some '"' := by simp
  have hvalue := Token.ofChars_quoted spelling value hend
  have hnewline : Token.ofChars ('\n' :: rest) = .newline :: Token.ofChars rest :=
    Token.ofChars_cons rfl
  have hequals (cs : List Char) : Token.ofChars ('=' :: cs) = .equals :: Token.ofChars cs :=
    Token.ofChars_cons rfl
  have hchars : " = ".toList ++ spelling.quoted value ++ ['\n'] ++ rest
      = ' ' :: '=' :: ' ' :: (spelling.quoted value ++ '\n' :: rest) := by
    simp
  rw [hchars, Token.ofChars_space (by simp; decide), hequals,
    Token.ofChars_space (by simp [Spelling.quoted]; decide), hvalue, hnewline]
  rfl

/-! ### Paragraphs -/

/-- A header with the lines that belong to it. -/
inductive Paragraph where
  /-- The header of an environment, and its label. -/
  | environment (label : String)
  /-- The header of a register, its name, and its fields. -/
  | register (name : String) (fields : List (String × String))

namespace Paragraph

/-- The text of the first line. -/
def name : Paragraph → String
  | environment label => label
  | register name _ => name

/-- The fields on the other lines. -/
def fields : Paragraph → List (String × String)
  | environment _ => []
  | register _ fields => fields

/-- The header. -/
def header : Paragraph → String
  | environment _ => "[[environment]]\n"
  | register _ _ => "[[environment.register]]\n"

/-- The paragraph as a text. -/
def chars (spelling : Spelling) (p : Paragraph) : List Char :=
  p.header.toList ++ entryLine "name".toList (spelling.quoted p.name) ++
    p.fields.flatMap fun f => entryLine (spelling.quoted f.1) (spelling.quoted f.2)

/-- The tokens of the header. -/
def headerTokens : Paragraph → List Token
  | environment _ =>
    [.leftBracket, .leftBracket, .word "environment".toList, .rightBracket, .rightBracket, .newline]
  | register _ _ =>
    [.leftBracket, .leftBracket, .word "environment".toList, .period, .word "register".toList,
      .rightBracket, .rightBracket, .newline]

/-- The tokens of the lines of fields. -/
def fieldTokens (fields : List (String × String)) : List Token :=
  fields.flatMap fun f => entryTokens (.string f.1.toList false) f.2

/-- The tokens of the paragraph. -/
def tokens (p : Paragraph) : List Token :=
  p.headerTokens ++ entryTokens (.word "name".toList) p.name ++ fieldTokens p.fields

theorem ofChars_header (p : Paragraph) (rest : List Char) :
    Token.ofChars (p.header.toList ++ rest) = p.headerTokens ++ Token.ofChars rest := by
  have hleft (cs : List Char) : Token.ofChars ('[' :: cs) = .leftBracket :: Token.ofChars cs :=
    Token.ofChars_cons rfl
  have hright (cs : List Char) : Token.ofChars (']' :: cs) = .rightBracket :: Token.ofChars cs :=
    Token.ofChars_cons rfl
  have hperiod (cs : List Char) : Token.ofChars ('.' :: cs) = .period :: Token.ofChars cs :=
    Token.ofChars_cons rfl
  have hnewline (cs : List Char) : Token.ofChars ('\n' :: cs) = .newline :: Token.ofChars cs :=
    Token.ofChars_cons rfl
  cases p with
  | environment label =>
    have hchars : (environment label).header.toList ++ rest
        = '[' :: '[' :: ('e' :: "nvironment".toList ++ ']' :: ']' :: '\n' :: rest) := by
      simp [header]
    rw [hchars, hleft, hleft, Token.ofChars_word_cons rfl rfl, hright, hright, hnewline]
    rfl
  | register name fields =>
    have hchars : (register name fields).header.toList ++ rest
        = '[' :: '[' :: ('e' :: "nvironment".toList ++ '.' ::
          ('r' :: "egister".toList ++ ']' :: ']' :: '\n' :: rest)) := by
      simp [header]
    rw [hchars, hleft, hleft, Token.ofChars_word_cons rfl rfl, hperiod,
      Token.ofChars_word_cons rfl rfl, hright, hright, hnewline]
    rfl

theorem ofChars_fields (spelling : Spelling) (fields : List (String × String)) (rest : List Char) :
    Token.ofChars ((fields.flatMap fun f => entryLine (spelling.quoted f.1) (spelling.quoted f.2))
      ++ rest) = fieldTokens fields ++ Token.ofChars rest := by
  induction fields with
  | nil => rfl
  | cons f fields ih =>
    rw [List.flatMap_cons, List.append_assoc, entryLine, List.append_assoc, List.append_assoc,
      List.append_assoc, Token.ofChars_quoted spelling f.1 (by simp), ← List.append_assoc,
      ← List.append_assoc, ofChars_afterKey, ih]
    rfl

/-- A paragraph is cut into its tokens, whatever follows it. -/
theorem ofChars_chars (spelling : Spelling) (p : Paragraph) (rest : List Char) :
    Token.ofChars (p.chars spelling ++ rest) = p.tokens ++ Token.ofChars rest := by
  have hname (cs : List Char) :
      Token.ofChars (entryLine "name".toList (spelling.quoted p.name) ++ cs)
        = entryTokens (.word "name".toList) p.name ++ Token.ofChars cs := by
    have hassoc : entryLine "name".toList (spelling.quoted p.name) ++ cs
        = 'n' :: "ame".toList ++ ' ' :: '=' :: ' ' :: (spelling.quoted p.name ++ ['\n'] ++ cs) := by
      simp [entryLine]
    have hafter := ofChars_afterKey spelling p.name cs
    rw [hassoc, Token.ofChars_word_cons rfl rfl]
    exact congrArg (Token.word "name".toList :: ·) hafter
  rw [chars, List.append_assoc, List.append_assoc, ofChars_header, hname, ofChars_fields, tokens,
    List.append_assoc, List.append_assoc]

end Paragraph

/-! ### Texts -/

/-- The paragraph of a register. -/
def RegisterRecord.paragraph (r : RegisterRecord) : Paragraph :=
  .register r.name r.fields

/-- The paragraphs of environments, in order. -/
def paragraphs (es : List EnvironmentRecord) : List Paragraph :=
  es.flatMap fun e => .environment e.label :: e.registers.map RegisterRecord.paragraph

/-- The text that environments are written in. -/
def tomlText (spelling : Spelling) (es : List EnvironmentRecord) : String :=
  String.ofList ((paragraphs es).flatMap (Paragraph.chars spelling))

theorem ofChars_paragraphs (spelling : Spelling) (ps : List Paragraph) :
    Token.ofChars (ps.flatMap (Paragraph.chars spelling)) = ps.flatMap Paragraph.tokens := by
  induction ps with
  | nil => rw [List.flatMap_nil, Token.ofChars, List.flatMap_nil]
  | cons p ps ih => rw [List.flatMap_cons, Paragraph.ofChars_chars, ih, List.flatMap_cons]

/-- No paragraph holds a carriage return. -/
theorem Paragraph.carriageReturn_notMem (spelling : Spelling) (p : Paragraph) :
    '\r' ∉ p.chars spelling := by
  have hquoted := spelling.carriageReturn_notMem_quoted
  have hheader : '\r' ∉ p.header.toList := by
    cases p <;> simp [header]
  simp [chars, entryLine, hquoted, hheader]

/-- The tokens of a text are those of its paragraphs. -/
theorem ofText_tomlText (spelling : Spelling) (es : List EnvironmentRecord) :
    Token.ofText (tomlText spelling es) = (paragraphs es).flatMap Paragraph.tokens := by
  have hreturn : '\r' ∉ (paragraphs es).flatMap (Paragraph.chars spelling) := fun h => by
    obtain ⟨p, -, hp⟩ := List.mem_flatMap.1 h
    exact p.carriageReturn_notMem spelling hp
  have hmark : ((paragraphs es).flatMap (Paragraph.chars spelling)).head? ≠ some '\ufeff' := by
    cases hps : paragraphs es with
    | nil => simp
    | cons p ps =>
      cases p <;> simp [Paragraph.chars, Paragraph.header]
  rw [tomlText, Token.ofText_ofList hreturn hmark, ofChars_paragraphs]

end RegisterTables.Catalogue
