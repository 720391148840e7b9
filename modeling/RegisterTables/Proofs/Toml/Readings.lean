import RegisterTables.Proofs.Failure
import RegisterTables.Proofs.Toml.Literals
import RegisterTables.Toml.Syntax

/-!
# What a reader of TOML has read

Where a reader succeeds, this is what it found. A number has the text of its tokens
(`Number.read_eq_ok`), and the other readers find one of a few things each (`value_cases`,
`arrayItems_cases`, `inlineEntries_cases`). What is left is the end of what was given, and what
stands behind the value of an entry cannot be part of a number (`EndsLiteral`).
-/

namespace RegisterTables.Toml

/-! ### Numbers -/

/-- The tokens in front of `rest` may be part of a number, and `text'` is `text` with their
characters behind it. -/
def ReadsOn (text : List Char) (ts : List Lexeme) (text' : List Char) (rest : List Lexeme) : Prop :=
  ∃ used, ts = used ++ rest ∧ (∀ t ∈ used, t.token.isLiteral = true) ∧
    text' = text ++ used.flatMap (·.token.literalChars)

theorem ReadsOn.refl (text : List Char) (ts : List Lexeme) : ReadsOn text ts text ts :=
  ⟨[], by simp, by simp, by simp⟩

theorem ReadsOn.cons {text text' : List Char} {t : Lexeme} {ts rest : List Lexeme}
    (ht : t.token.isLiteral = true)
    (h : ReadsOn (text ++ t.token.literalChars) ts text' rest) :
    ReadsOn text (t :: ts) text' rest := by
  obtain ⟨used, hts, hused, htext⟩ := h
  refine ⟨t :: used, ?_, List.forall_mem_cons.2 ⟨ht, hused⟩, ?_⟩
  · rw [hts, List.cons_append]
  · rw [htext, List.flatMap_cons, List.append_assoc]

/-- A sign and a word are read one after the other. -/
theorem ReadsOn.cons_word {text word text' : List Char} {t : Lexeme} {c : Char} {n : ℕ}
    {ts rest : List Lexeme} (ht : t.token.isLiteral = true) (hc : t.token.literalChars = [c])
    (h : ReadsOn (text ++ c :: word) ts text' rest) :
    ReadsOn text (t :: ⟨.word word, n⟩ :: ts) text' rest := by
  refine .cons ht (.cons rfl ?_)
  rw [hc, List.append_assoc]
  exact h

namespace Number

theorem exponent_eq_ok {text digits suffix text' : List Char} {scale : ℕ} {ts rest : List Lexeme}
    (h : exponent text digits scale suffix ts = .ok (text', rest)) :
    ReadsOn text ts text' rest := by
  have finish {power : ℤ} {text₁ : List Char} {ts₁ : List Lexeme}
      (h : (if isFinite digits (power - scale) then .ok (text₁, ts₁)
        else .error Fault.invalidNumber) = Except.ok (text', rest)) :
      ReadsOn text₁ ts₁ text' rest := by
    split at h
    · obtain ⟨rfl, rfl⟩ := Prod.mk.inj (Except.ok.inj h)
      exact .refl _ _
    · cases h
  unfold exponent at h
  dsimp only at h
  split at h
  · exact finish h
  · split at h
    · cases h
    · split at h
      · split at h
        · split at h
          · split at h
            · exact .cons_word rfl rfl (finish h)
            · cases h
          · cases h
        · cases h
        · cases h
        · cases h
      · split at h
        · split at h
          · exact finish h
          · cases h
        · cases h

theorem float_eq_ok {text word text' : List Char} {fraction : Option (List Char)}
    {ts rest : List Lexeme} (h : float text word fraction ts = .ok (text', rest)) :
    ReadsOn text ts text' rest := by
  unfold float at h
  split at h
  · cases h
  · split at h
    · exact exponent_eq_ok h
    · split at h
      · split at h
        · exact exponent_eq_ok h
        · cases h
      · cases h

/-- **The text of a number** is that of its tokens. -/
theorem read_eq_ok {plus : Bool} {word text : List Char} {ts rest : List Lexeme}
    (h : read plus word ts = .ok (text, rest)) :
    ReadsOn (if plus then '+' :: word else word) ts text rest := by
  have whole {valid : Bool} {text₁ : List Char} {ts₁ : List Lexeme}
      (h : (if valid then .ok (text₁, ts₁) else .error Fault.invalidNumber)
        = Except.ok (text, rest)) : ReadsOn text₁ ts₁ text rest := by
    split at h
    · obtain ⟨rfl, rfl⟩ := Prod.mk.inj (Except.ok.inj h)
      exact .refl _ _
    · cases h
  unfold read at h
  dsimp only at h
  split at h
  · exact whole h
  · exact whole h
  · exact whole h
  · split at h
    · exact float_eq_ok h
    · split at h
      · exact .cons_word rfl rfl (float_eq_ok h)
      · cases h
      · cases h
      · cases h
      · exact whole h

end Number

/-! ### What a value is read from -/

/-- A number or a truth value is written with these tokens. -/
def IsWrittenAs (e : Expr) (ts rest : List Lexeme) : Prop :=
  ∃ text, ReadsOn [] ts text rest ∧
    (e = .number (String.ofList text) ∨ ∃ b, e = .bool b ∧ text = (toString b).toList)

/-- A value is a string, a number or a truth value, an array, or a table between braces. -/
theorem value_cases {fuel : ℕ} {t : Lexeme} {ts rest : List Lexeme} {e : Expr}
    (h : value (fuel + 1) (t :: ts) = .ok (e, rest)) :
    (∃ text multiline, t.token = .string text multiline ∧ e = .string (String.ofList text) ∧
      rest = ts) ∨
    (t.token.isLiteral = true ∧ IsWrittenAs e (t :: ts) rest) ∨
    (∃ items, t.token = .leftBracket ∧ e = .array items ∧
      arrayItems fuel ts = .ok (items, rest)) ∨
    ∃ body, t.token = .leftBrace ∧ e = .inline body ∧
      ((body = [] ∧ ∃ n, skipBlank ts = ⟨.rightBrace, n⟩ :: rest) ∨
        inlineEntries fuel [] (skipBlank ts) = .ok (body, rest)) := by
  have number {plus : Bool} {word : List Char} {ts₁ : List Lexeme}
      (h : numberValue plus word ts₁ = .ok (e, rest)) :
      ∃ text, ReadsOn (if plus then '+' :: word else word) ts₁ text rest ∧
        e = .number (String.ofList text) := by
    obtain ⟨⟨text, rest'⟩, hread, h⟩ := bind_eq_ok.1 h
    obtain ⟨rfl, rfl⟩ := Prod.mk.inj (Except.ok.inj h)
    exact ⟨text, Number.read_eq_ok hread, rfl⟩
  obtain ⟨token, n⟩ := t
  cases token with
  | string text multiline =>
    simp only [value] at h
    obtain ⟨rfl, rfl⟩ := Prod.mk.inj (Except.ok.inj h)
    exact .inl ⟨text, multiline, rfl, rfl, rfl⟩
  | word text =>
    refine .inr (.inl ⟨rfl, ?_⟩)
    simp only [value] at h
    split at h
    · next htrue =>
      obtain ⟨rfl, rfl⟩ := Prod.mk.inj (Except.ok.inj h)
      exact ⟨text, .cons rfl (.refl _ _), .inr ⟨true, rfl, htrue⟩⟩
    · split at h
      · next hfalse =>
        obtain ⟨rfl, rfl⟩ := Prod.mk.inj (Except.ok.inj h)
        exact ⟨text, .cons rfl (.refl _ _), .inr ⟨false, rfl, hfalse⟩⟩
      · split at h
        · obtain ⟨text', hreads, rfl⟩ := number h
          exact ⟨text', .cons rfl hreads, .inl rfl⟩
        · cases h
  | plus =>
    refine .inr (.inl ⟨rfl, ?_⟩)
    simp only [value] at h
    split at h
    · obtain ⟨text', hreads, rfl⟩ := number h
      exact ⟨text', .cons rfl (.cons rfl hreads), .inl rfl⟩
    · cases h
    · cases h
  | leftBracket =>
    simp only [value] at h
    obtain ⟨⟨items, rest'⟩, hitems, h⟩ := bind_eq_ok.1 h
    obtain ⟨rfl, rfl⟩ := Prod.mk.inj (Except.ok.inj h)
    exact .inr (.inr (.inl ⟨items, rfl, rfl, hitems⟩))
  | leftBrace =>
    simp only [value] at h
    split at h
    · next m ts' hskip =>
      obtain ⟨rfl, rfl⟩ := Prod.mk.inj (Except.ok.inj h)
      exact .inr (.inr (.inr ⟨[], rfl, rfl, .inl ⟨rfl, m, hskip⟩⟩))
    · obtain ⟨⟨body, rest'⟩, hbody, h⟩ := bind_eq_ok.1 h
      obtain ⟨rfl, rfl⟩ := Prod.mk.inj (Except.ok.inj h)
      exact .inr (.inr (.inr ⟨body, rfl, rfl, .inr hbody⟩))
  | _ => simp [value] at h

/-- An array ends at a bracket, in front of its first item or behind its last one. -/
theorem arrayItems_cases {fuel : ℕ} {ts rest : List Lexeme} {items : List Expr}
    (h : arrayItems (fuel + 1) ts = .ok (items, rest)) :
    ∃ ts₁, skipLines ts = .ok ts₁ ∧
      ((items = [] ∧ ∃ n, ts₁ = ⟨.rightBracket, n⟩ :: rest) ∨
      ∃ item items' ts₂ ts₃, items = item :: items' ∧ value fuel ts₁ = .ok (item, ts₂) ∧
        skipLines ts₂ = .ok ts₃ ∧
        ((∃ n ts₄, ts₃ = ⟨.comma, n⟩ :: ts₄ ∧ arrayItems fuel ts₄ = .ok (items', rest)) ∨
          (items' = [] ∧ expect .rightBracket ts₃ = .ok rest))) := by
  rw [arrayItems] at h
  obtain ⟨ts₁, hskip, h⟩ := bind_eq_ok.1 h
  refine ⟨ts₁, hskip, ?_⟩
  split at h
  · next n ts₂ =>
    obtain ⟨rfl, rfl⟩ := Prod.mk.inj (Except.ok.inj h)
    exact .inl ⟨rfl, n, rfl⟩
  · obtain ⟨⟨item, ts₂⟩, hitem, h⟩ := bind_eq_ok.1 h
    obtain ⟨ts₃, hskip', h⟩ := bind_eq_ok.1 h
    split at h
    · next n ts₄ =>
      obtain ⟨⟨items', rest'⟩, hitems, h⟩ := bind_eq_ok.1 h
      obtain ⟨rfl, rfl⟩ := Prod.mk.inj (Except.ok.inj h)
      exact .inr ⟨item, items', ts₂, _, rfl, hitem, hskip', .inl ⟨n, ts₄, rfl, hitems⟩⟩
    · obtain ⟨rest', hexpect, h⟩ := bind_eq_ok.1 h
      obtain ⟨rfl, rfl⟩ := Prod.mk.inj (Except.ok.inj h)
      exact .inr ⟨item, [], ts₂, ts₃, rfl, hitem, hskip', .inr ⟨rfl, hexpect⟩⟩

/-- Entries between braces are read one after the other, up to the closing brace. -/
theorem inlineEntries_cases {fuel : ℕ} {body body' : Body} {ts rest : List Lexeme}
    (h : inlineEntries (fuel + 1) body ts = .ok (body', rest)) :
    ∃ path ts₁ ts₂ item ts₃ body₁, keyPath ts = .ok (path, ts₁) ∧ expect .equals ts₁ = .ok ts₂ ∧
      value fuel (skipBlank ts₂) = .ok (item, ts₃) ∧ body.insert item path = .ok body₁ ∧
      ((body' = body₁ ∧ ∃ n, skipBlank ts₃ = ⟨.rightBrace, n⟩ :: rest) ∨
        ∃ ts₄, expect .comma (skipBlank ts₃) = .ok ts₄ ∧
          inlineEntries fuel body₁ ts₄ = .ok (body', rest)) := by
  rw [inlineEntries] at h
  obtain ⟨⟨path, ts₁⟩, hpath, h⟩ := bind_eq_ok.1 h
  obtain ⟨ts₂, hequals, h⟩ := bind_eq_ok.1 h
  obtain ⟨⟨item, ts₃⟩, hitem, h⟩ := bind_eq_ok.1 h
  obtain ⟨body₁, hinsert, h⟩ := bind_eq_ok.1 h
  refine ⟨path, ts₁, ts₂, item, ts₃, body₁, hpath, hequals, hitem, hinsert, ?_⟩
  split at h
  · next n ts₄ hskip =>
    obtain ⟨rfl, rfl⟩ := Prod.mk.inj (Except.ok.inj h)
    exact .inl ⟨rfl, n, hskip⟩
  · obtain ⟨ts₄, hcomma, h⟩ := bind_eq_ok.1 h
    exact .inr ⟨ts₄, hcomma, h⟩

/-! ### Single tokens -/

theorem exists_of_expect {t : Token} {ts rest : List Lexeme} (h : expect t ts = .ok rest) :
    ∃ n, ts = ⟨t, n⟩ :: rest := by
  unfold expect at h
  split at h
  · next u us =>
    split at h
    · next hu =>
      obtain rfl := Except.ok.inj h
      exact ⟨u.place, by rw [← hu]⟩
    · cases h
  · cases h

theorem suffix_of_expect {t : Token} {ts rest : List Lexeme} (h : expect t ts = .ok rest) :
    rest <:+ ts := by
  obtain ⟨n, rfl⟩ := exists_of_expect h
  exact List.suffix_cons _ _

theorem suffix_skipBlank (ts : List Lexeme) : skipBlank ts <:+ ts := by
  unfold skipBlank
  split
  · exact List.suffix_cons _ _
  · exact List.suffix_rfl

theorem suffix_skipLines {ts rest : List Lexeme} (h : skipLines ts = .ok rest) : rest <:+ ts := by
  fun_induction skipLines ts with
  | case1 n ts ih => exact (ih h).trans (List.suffix_cons _ _)
  | case2 n ts ih => exact (ih h).trans (List.suffix_cons _ _)
  | case3 n =>
    obtain rfl := Except.ok.inj h
    exact List.nil_suffix
  | case4 n m ts ih =>
    exact (ih h).trans ((List.suffix_cons _ _).trans (List.suffix_cons _ _))
  | case5 => cases h
  | case6 =>
    obtain rfl := Except.ok.inj h
    exact List.suffix_rfl

/-- No token that may be part of a number follows. -/
def EndsLiteral (ts : List Lexeme) : Prop :=
  ∀ t ∈ ts.head?, t.token.isLiteral = false

theorem endsLiteral_cons {t : Lexeme} (ts : List Lexeme) (h : t.token.isLiteral = false) :
    EndsLiteral (t :: ts) := by
  intro u hu
  obtain rfl := Option.some.inj hu
  exact h

/-- A blank ends a literal, and so does what follows it if it does so in its place. -/
theorem endsLiteral_of_skipBlank {ts : List Lexeme} (h : EndsLiteral (skipBlank ts)) :
    EndsLiteral ts := by
  unfold skipBlank at h
  split at h
  · exact endsLiteral_cons _ rfl
  · exact h

/-- A line ends behind a value. -/
theorem endsLiteral_of_blankLineEnd {ts rest : List Lexeme} (h : blankLineEnd ts = .ok rest) :
    rest <:+ ts ∧ EndsLiteral ts := by
  have hline {us : List Lexeme} (h : lineEnd us = .ok rest) : rest <:+ us ∧ EndsLiteral us := by
    unfold lineEnd at h
    split at h
    · obtain rfl := Except.ok.inj h
      exact ⟨List.suffix_rfl, nofun⟩
    · obtain rfl := Except.ok.inj h
      exact ⟨List.suffix_cons _ _, endsLiteral_cons _ rfl⟩
    · cases h
  have hskip := suffix_skipBlank ts
  unfold blankLineEnd at h
  split at h
  · next n us hcomment =>
    rw [hcomment] at hskip
    refine ⟨(hline h).1.trans ((List.suffix_cons _ _).trans hskip), ?_⟩
    exact endsLiteral_of_skipBlank (hcomment ▸ endsLiteral_cons us rfl)
  · obtain ⟨hsuffix, hends⟩ := hline h
    exact ⟨hsuffix.trans hskip, endsLiteral_of_skipBlank hends⟩

end RegisterTables.Toml
