import RegisterTables.Proofs.Failure
import RegisterTables.Proofs.Toml.Lexing

/-!
# Literals in the text

A number is read token by token, while in the text it is a run of characters. Here the two are put
next to each other: `Token.after` is what is left of a text behind its first tokens, and the tokens
that may be part of a number stand for their characters (`Token.ofChars_eq_append`), so a run of
such tokens that cannot be prolonged is a run of such characters that cannot be prolonged.

`IsLiteralAt` says that a run of characters is what is written in a text as the value of a key. The
text is the one that was given: neither the byte order mark nor line ends of two characters, which
are gone before the tokens are cut, matter to it.
-/

namespace RegisterTables.Toml

/-! ### Readers leave the end of what they were given -/

namespace Quote

theorem suffix_hexCode {n code value : ℕ} {cs rest : List Char}
    (h : hexCode n code cs = .ok (value, rest)) : rest <:+ cs := by
  induction n generalizing code cs with
  | zero =>
    obtain ⟨-, rfl⟩ := Prod.mk.inj (Except.ok.inj h)
    exact List.suffix_rfl
  | succ n ih =>
    cases cs with
    | nil => cases h
    | cons c cs =>
      rw [hexCode] at h
      split at h
      · exact (ih h).trans (List.suffix_cons c cs)
      · cases h

theorem suffix_codedChar {n : ℕ} {c : Char} {cs rest : List Char}
    (h : codedChar n cs = .ok (c, rest)) : rest <:+ cs := by
  unfold codedChar at h
  split at h
  · cases h
  · next code tail hcode =>
    split at h
    · obtain ⟨-, rfl⟩ := Prod.mk.inj (Except.ok.inj h)
      exact suffix_hexCode hcode
    · cases h

theorem suffix_afterLineEnd? {cs rest : List Char} (h : afterLineEnd? cs = some rest) :
    rest <:+ cs := by
  unfold afterLineEnd? at h
  split at h
  · obtain rfl := Option.some.inj h
    exact List.nil_suffix
  · next tail htail =>
    obtain rfl := Option.some.inj h
    have hline : '\n' :: tail <:+ cs := htail ▸ List.dropWhile_suffix isIndent
    exact (List.dropWhile_suffix _).trans ((List.suffix_cons '\n' tail).trans hline)
  · cases h

theorem suffix_escape {multiline : Bool} {c : Option Char} {cs rest : List Char}
    (h : escape multiline cs = .ok (c, rest)) : rest <:+ cs := by
  cases cs with
  | nil => cases h
  | cons d cs =>
    simp only [escape] at h
    split at h
    case h_8 =>
      obtain ⟨⟨e, tail⟩, hcoded, heq⟩ := map_eq_ok.1 h
      obtain ⟨-, rfl⟩ := Prod.mk.inj heq
      exact (suffix_codedChar hcoded).trans (List.suffix_cons _ cs)
    case h_9 =>
      obtain ⟨⟨e, tail⟩, hcoded, heq⟩ := map_eq_ok.1 h
      obtain ⟨-, rfl⟩ := Prod.mk.inj heq
      exact (suffix_codedChar hcoded).trans (List.suffix_cons _ cs)
    case h_10 =>
      split at h
      · split at h
        · next hrest =>
          obtain ⟨-, rfl⟩ := Prod.mk.inj (Except.ok.inj h)
          exact suffix_afterLineEnd? hrest
        · cases h
      · cases h
    -- All other escapes are one character.
    all_goals
      obtain ⟨-, rfl⟩ := Prod.mk.inj (Except.ok.inj h)
      exact List.suffix_cons _ _

theorem suffix_trailingMarks (mark : Char) (cs : List Char) : (trailingMarks mark cs).2 <:+ cs := by
  unfold trailingMarks
  split
  · exact List.suffix_rfl
  · next c cs =>
    split
    · split
      · next d rest =>
        split
        · exact (List.suffix_cons d rest).trans (List.suffix_cons c (d :: rest))
        · exact List.suffix_cons c (d :: rest)
      · exact List.nil_suffix
    · exact List.suffix_rfl

theorem suffix_content {q : Quote} {multiline : Bool} {cs value rest : List Char}
    (h : content q multiline cs = .ok (value, rest)) : rest <:+ cs := by
  induction hn : cs.length using Nat.strongRecOn generalizing cs value with
  | _ n ih =>
    subst hn
    -- A character goes to the value, and the rest is read in the same way.
    have step {c : Char} {ds : List Char} (hd : ds.length < cs.length) (hsuffix : ds <:+ cs)
        (hp : prepend c (content q multiline ds) = .ok (value, rest)) : rest <:+ cs := by
      obtain ⟨tail, htail⟩ := length_prepend hp
      exact (ih _ hd htail rfl).trans hsuffix
    unfold content at h
    split at h
    · cases h
    · next c cs =>
      have hlength : cs.length < (c :: cs).length := Nat.lt_succ_self _
      have hcons : cs <:+ c :: cs := List.suffix_cons c cs
      split at h
      · split at h
        · split at h
          · have hmarks := suffix_trailingMarks q.mark (cs.drop 2)
            rw [Except.ok.inj h] at hmarks
            exact (hmarks.trans (List.drop_suffix 2 cs)).trans hcons
          · exact step hlength hcons h
        · obtain ⟨-, rfl⟩ := Prod.mk.inj (Except.ok.inj h)
          exact hcons
      · split at h
        · split at h
          · exact step hlength hcons h
          · cases h
        · split at h
          · split at h
            · cases h
            · next hescape =>
              exact step ((length_escape hescape).trans hlength)
                ((suffix_escape hescape).trans hcons) h
            · next hescape =>
              exact (ih _ ((length_escape hescape).trans hlength) h rfl).trans
                ((suffix_escape hescape).trans hcons)
          · split at h
            · exact step hlength hcons h
            · cases h

theorem suffix_read {q : Quote} {cs rest : List Char} {value : List Char × Bool}
    (h : read q cs = .ok (value, rest)) : rest <:+ cs := by
  have hrest {multiline : Bool} {ds : List Char} {found : List Char × List Char} (hds : ds <:+ cs)
      (hfound : content q multiline ds = .ok found)
      (heq : ((found.1, multiline), found.2) = (value, rest)) : rest <:+ cs := by
    obtain ⟨content, after⟩ := found
    obtain ⟨-, rfl⟩ := Prod.mk.inj heq
    exact (suffix_content hfound).trans hds
  simp only [read] at h
  split at h
  · have hdrop : cs.drop 2 <:+ cs := List.drop_suffix 2 cs
    split at h
    · -- A line end right behind the opening marks is no part of the string.
      next tail htail =>
      obtain ⟨found, hfound, heq⟩ := map_eq_ok.1 h
      rw [htail] at hdrop
      exact hrest ((List.suffix_cons '\n' tail).trans hdrop) hfound heq
    · obtain ⟨found, hfound, heq⟩ := map_eq_ok.1 h
      exact hrest hdrop hfound heq
  · obtain ⟨found, hfound, heq⟩ := map_eq_ok.1 h
    exact hrest List.suffix_rfl hfound heq

end Quote

namespace Token

/-- A token is a blank, a comment, a word, a sign or a string. -/
theorem read_cases {c : Char} {t : Token} {cs rest : List Char} (h : read c cs = .ok (t, rest)) :
    (Quote.isIndent c = true ∧ t = blank ∧ rest = cs.dropWhile Quote.isIndent) ∨
    (t = comment ∧ rest = cs.dropWhile isCommentChar) ∨
    (isWordChar c = true ∧ t = word (c :: cs.takeWhile isWordChar) ∧
      rest = cs.dropWhile isWordChar) ∨
    (ofSign? c = some t ∧ rest = cs) ∨
    ∃ q value multiline, Quote.read q cs = .ok ((value, multiline), rest) ∧
      t = string value multiline := by
  unfold read at h
  split at h
  · next hindent =>
    obtain ⟨rfl, rfl⟩ := Prod.mk.inj (Except.ok.inj h)
    exact .inl ⟨hindent, rfl, rfl⟩
  · split at h
    · obtain ⟨rfl, rfl⟩ := Prod.mk.inj (Except.ok.inj h)
      exact .inr (.inl ⟨rfl, rfl⟩)
    · split at h
      · next hword =>
        obtain ⟨rfl, rfl⟩ := Prod.mk.inj (Except.ok.inj h)
        exact .inr (.inr (.inl ⟨hword, rfl, rfl⟩))
      · split at h
        · next hsign =>
          obtain ⟨rfl, rfl⟩ := Prod.mk.inj (Except.ok.inj h)
          exact .inr (.inr (.inr (.inl ⟨hsign, rfl⟩)))
        · next q _ _ =>
          obtain ⟨⟨⟨value, multiline⟩, tail⟩, hstring, heq⟩ := map_eq_ok.1 h
          obtain ⟨rfl, rfl⟩ := Prod.mk.inj heq
          exact .inr (.inr (.inr (.inr ⟨q, value, multiline, hstring, rfl⟩)))
        · cases h

theorem suffix_read {c : Char} {t : Token} {cs rest : List Char}
    (h : read c cs = .ok (t, rest)) : rest <:+ cs := by
  rcases read_cases h with ⟨-, -, rfl⟩ | ⟨-, rfl⟩ | ⟨-, -, rfl⟩ | ⟨-, rfl⟩ |
    ⟨q, value, multiline, hstring, -⟩
  · exact List.dropWhile_suffix _
  · exact List.dropWhile_suffix _
  · exact List.dropWhile_suffix _
  · exact List.suffix_rfl
  · exact Quote.suffix_read hstring

/-! ### Behind the first tokens -/

/-- What is left of a text behind its first tokens; nothing if one of them cannot be read. -/
def after : ℕ → List Char → List Char
  | 0, cs => cs
  | _ + 1, [] => []
  | n + 1, c :: cs =>
    match read c cs with
    | .ok (_, rest) => after n rest
    | .error _ => []

/-- A text starts with a token, or with something that cannot be read. -/
theorem ofChars_cons_cases (c : Char) (cs : List Char) :
    (∃ t rest, read c cs = .ok (t, rest) ∧ ofChars (c :: cs) = t :: ofChars rest) ∨
      ∃ fault, read c cs = .error fault ∧ ofChars (c :: cs) = [invalid fault] := by
  cases hread : read c cs with
  | ok r => exact .inl ⟨r.1, r.2, rfl, ofChars_cons (t := r.1) hread⟩
  | error fault =>
    refine .inr ⟨fault, rfl, ?_⟩
    rw [ofChars]
    split
    · next fault' hfault =>
      rw [hread] at hfault
      rw [Except.error.inj hfault]
    · next t rest hok =>
      rw [hread] at hok
      cases hok

theorem drop_ofChars (n : ℕ) (cs : List Char) : (ofChars cs).drop n = ofChars (after n cs) := by
  induction n generalizing cs with
  | zero => rfl
  | succ n ih =>
    cases cs with
    | nil => rw [ofChars, List.drop_nil, after, ofChars]
    | cons c cs =>
      rcases ofChars_cons_cases c cs with ⟨t, rest, hread, hchars⟩ | ⟨fault, hread, hchars⟩
      · rw [hchars, List.drop_succ_cons, ih, after, hread]
      · rw [hchars, List.drop_succ_cons, List.drop_nil, after, hread, ofChars]

theorem suffix_after (n : ℕ) (cs : List Char) : after n cs <:+ cs := by
  induction n generalizing cs with
  | zero => exact List.suffix_rfl
  | succ n ih =>
    cases cs with
    | nil => exact List.suffix_rfl
    | cons c cs =>
      rw [after]
      cases hread : read c cs with
      | ok r => exact (ih r.2).trans ((suffix_read (t := r.1) hread).trans (List.suffix_cons c cs))
      | error fault => exact List.nil_suffix

/-! ### Tokens of a literal -/

/-- Whether the token may be part of a number. -/
def isLiteral : Token → Bool
  | word _ | period | plus => true
  | _ => false

/-- The characters of a token that may be part of a number. -/
def literalChars : Token → List Char
  | word text => text
  | period => ['.']
  | plus => ['+']
  | _ => []

/-- Whether the character may be part of a number. -/
def isLiteralChar (c : Char) : Bool :=
  isWordChar c || c == '.' || c == '+'

/-- A sign that may be part of a number is a character that may be. -/
theorem literalChars_of_ofSign? {c : Char} {t : Token} (h : ofSign? c = some t)
    (ht : t.isLiteral = true) : t.literalChars = [c] ∧ isLiteralChar c = true := by
  unfold ofSign? at h
  split at h
  case h_3 =>
    obtain rfl := Option.some.inj h
    exact ⟨rfl, rfl⟩
  case h_6 =>
    obtain rfl := Option.some.inj h
    exact ⟨rfl, rfl⟩
  case h_11 => cases h
  all_goals
    obtain rfl := Option.some.inj h
    cases ht

/-- A token that may be part of a number stands for its characters. -/
theorem literalChars_of_read {c : Char} {t : Token} {cs rest : List Char}
    (h : read c cs = .ok (t, rest)) (ht : t.isLiteral = true) :
    c :: cs = t.literalChars ++ rest ∧ t.literalChars ≠ [] ∧
      ∀ d ∈ t.literalChars, isLiteralChar d = true := by
  rcases read_cases h with ⟨-, rfl, -⟩ | ⟨rfl, -⟩ | ⟨hword, rfl, rfl⟩ | ⟨hsign, rfl⟩ |
    ⟨q, value, multiline, -, rfl⟩
  · cases ht
  · cases ht
  · refine ⟨?_, List.cons_ne_nil _ _, ?_⟩
    · rw [literalChars, List.cons_append, List.takeWhile_append_dropWhile]
    · have hchars : ∀ d ∈ c :: cs.takeWhile isWordChar, isWordChar d = true :=
        List.forall_mem_cons.2 ⟨hword, fun d hd => List.mem_takeWhile_imp hd⟩
      intro d hd
      rw [isLiteralChar, hchars d hd, Bool.true_or, Bool.true_or]
  · obtain ⟨hchars, hc⟩ := literalChars_of_ofSign? hsign ht
    rw [hchars]
    exact ⟨rfl, List.cons_ne_nil _ _, List.forall_mem_singleton.2 hc⟩
  · cases ht

/-- A character that may be part of a number starts a token that may be. -/
theorem exists_read_of_isLiteralChar {c : Char} (h : isLiteralChar c = true) (cs : List Char) :
    ∃ t rest, read c cs = .ok (t, rest) ∧ t.isLiteral = true := by
  rw [isLiteralChar, Bool.or_eq_true, Bool.or_eq_true, beq_iff_eq, beq_iff_eq] at h
  rcases h with (hword | rfl) | rfl
  · obtain ⟨hindent, hcomment⟩ := isIndent_of_isWordChar hword
    refine ⟨word (c :: cs.takeWhile isWordChar), cs.dropWhile isWordChar, ?_, rfl⟩
    rw [read, hindent, if_neg Bool.false_ne_true, if_neg hcomment, if_pos hword]
  · exact ⟨period, cs, rfl, rfl⟩
  · exact ⟨plus, cs, rfl, rfl⟩

/-- Where no token goes on with a number, no character does. -/
theorem isLiteralChar_head?_of_ofChars {cs : List Char}
    (h : ∀ t ∈ (ofChars cs).head?, t.isLiteral = false) :
    ∀ c ∈ cs.head?, isLiteralChar c = false := by
  intro c hc
  cases cs with
  | nil => cases hc
  | cons d cs =>
    obtain rfl := Option.some.inj hc
    by_contra hliteral
    obtain ⟨t, rest, hread, ht⟩ := exists_read_of_isLiteralChar (by simpa using hliteral) cs
    rw [ofChars_cons hread] at h
    exact Bool.false_ne_true ((h t rfl).symm.trans ht)

/-- Tokens that may be part of a number are cut from their characters. -/
theorem ofChars_eq_append {cs : List Char} {used ts : List Token} (h : ofChars cs = used ++ ts)
    (hused : ∀ t ∈ used, t.isLiteral = true) :
    ∃ rest, cs = used.flatMap literalChars ++ rest ∧ ofChars rest = ts ∧
      (∀ c ∈ used.flatMap literalChars, isLiteralChar c = true) ∧
      (used ≠ [] → used.flatMap literalChars ≠ []) := by
  induction used generalizing cs with
  | nil => exact ⟨cs, rfl, h, List.forall_mem_nil _, fun hne => absurd rfl hne⟩
  | cons t used ih =>
    obtain ⟨ht, hrestUsed⟩ := List.forall_mem_cons.1 hused
    cases cs with
    | nil =>
      rw [ofChars] at h
      cases h
    | cons c cs =>
      rcases ofChars_cons_cases c cs with ⟨t', rest, hread, hchars⟩ | ⟨fault, -, hchars⟩
      · obtain ⟨rfl, hrest⟩ := List.cons.inj (hchars.symm.trans h)
        obtain ⟨hcs, hne, hliteral⟩ := literalChars_of_read hread ht
        obtain ⟨rest', rfl, hts, hliteral', -⟩ := ih hrest hrestUsed
        rw [List.flatMap_cons]
        refine ⟨rest', ?_, hts, List.forall_mem_append.2 ⟨hliteral, hliteral'⟩, fun _ => ?_⟩
        · rw [hcs, List.append_assoc]
        · exact List.append_ne_nil_of_left_ne_nil hne _
      · obtain ⟨rfl, -⟩ := List.cons.inj (hchars.symm.trans h)
        cases ht

/-! ### Blanks and signs -/

/-- The sign of a token, where it has one. -/
theorem ofSign?_eq_some {c : Char} {t : Token} (h : ofSign? c = some t) :
    t ≠ blank ∧ (t = equals → c = '=') := by
  unfold ofSign? at h
  split at h <;> cases h <;> exact ⟨nofun, by simp⟩

/-- Only a space or a tab starts a blank. -/
theorem ne_blank_of_read {c : Char} {t : Token} {cs rest : List Char}
    (h : read c cs = .ok (t, rest)) (hc : Quote.isIndent c = false) : t ≠ blank := by
  rcases read_cases h with ⟨hindent, -⟩ | ⟨rfl, -⟩ | ⟨-, rfl, -⟩ | ⟨hsign, -⟩ |
    ⟨q, value, multiline, -, rfl⟩
  · exact absurd hindent (by simp [hc])
  · exact nofun
  · exact nofun
  · exact (ofSign?_eq_some hsign).1
  · exact nofun

/-- Only its sign is an equals sign. -/
theorem eq_of_read_equals {c : Char} {cs rest : List Char} (h : read c cs = .ok (equals, rest)) :
    c = '=' ∧ rest = cs := by
  rcases read_cases h with ⟨-, heq, -⟩ | ⟨heq, -⟩ | ⟨-, heq, -⟩ | ⟨hsign, rfl⟩ |
    ⟨q, value, multiline, -, heq⟩
  · cases heq
  · cases heq
  · cases heq
  · exact ⟨(ofSign?_eq_some hsign).2 rfl, rfl⟩
  · cases heq

/-- Dropping blanks is dropping spaces and tabs. -/
theorem dropWhile_ofChars (cs : List Char) :
    (ofChars cs).dropWhile (· = blank) = ofChars (cs.dropWhile Quote.isIndent) := by
  have hstop {cs : List Char} (hcs : ∀ c ∈ cs.head?, Quote.isIndent c = false) :
      (ofChars cs).dropWhile (· = blank) = ofChars cs := by
    cases cs with
    | nil => rw [ofChars, List.dropWhile_nil]
    | cons c cs =>
      rcases ofChars_cons_cases c cs with ⟨t, rest, hread, hchars⟩ | ⟨fault, -, hchars⟩
      · have ht : t ≠ blank := ne_blank_of_read hread (hcs c rfl)
        rw [hchars, List.dropWhile_cons_of_neg (by simpa using ht)]
      · rw [hchars]
        rfl
  cases cs with
  | nil => rw [ofChars, List.dropWhile_nil, List.dropWhile_nil, ofChars]
  | cons c cs =>
    by_cases hc : Quote.isIndent c = true
    · -- One blank is the whole run of spaces and tabs, so what follows it is none.
      have hread : read c cs = .ok (blank, cs.dropWhile Quote.isIndent) := by
        rw [read, if_pos hc]
      rw [ofChars_cons hread, List.dropWhile_cons_of_pos (by simp), List.dropWhile_cons_of_pos hc]
      exact hstop Text.eq_false_of_mem_head?_dropWhile
    · rw [List.dropWhile_cons_of_neg hc]
      refine hstop ?_
      intro d hd
      obtain rfl := Option.some.inj hd
      exact Bool.eq_false_iff.2 hc

/-- An equals sign is cut from its character. -/
theorem exists_of_ofChars_equals {cs : List Char} {ts : List Token}
    (h : ofChars cs = equals :: ts) : ∃ rest, cs = '=' :: rest ∧ ofChars rest = ts := by
  cases cs with
  | nil =>
    rw [ofChars] at h
    cases h
  | cons c cs =>
    rcases ofChars_cons_cases c cs with ⟨t, rest, hread, hchars⟩ | ⟨fault, -, hchars⟩
    · obtain ⟨rfl, hts⟩ := List.cons.inj (hchars.symm.trans h)
      obtain ⟨rfl, rfl⟩ := eq_of_read_equals hread
      exact ⟨rest, rfl, hts⟩
    · cases hchars.symm.trans h

/-! ### Line ends -/

/-- What stands behind a part of a text with plain line ends stands behind a part of the text. -/
theorem exists_of_unifyLineEnds_append {cs before after : List Char}
    (h : unifyLineEnds cs = before ++ after) :
    ∃ before' after', cs = before' ++ after' ∧ unifyLineEnds after' = after := by
  induction before generalizing cs with
  | nil => exact ⟨[], cs, rfl, h⟩
  | cons c before ih =>
    unfold unifyLineEnds at h
    split at h
    · cases h
    · -- Here one character stands for two of the text.
      next ds =>
      obtain ⟨before', after', rfl, hafter⟩ := ih (List.cons.inj h).2
      exact ⟨'\r' :: '\n' :: before', after', rfl, hafter⟩
    · next d ds _ =>
      obtain ⟨before', after', rfl, hafter⟩ := ih (List.cons.inj h).2
      exact ⟨d :: before', after', rfl, hafter⟩

/-- Characters of a number are no line ends, so they stand in the text as they are. -/
theorem exists_of_unifyLineEnds_literal {cs literal after : List Char}
    (h : unifyLineEnds cs = literal ++ after) (hliteral : ∀ c ∈ literal, isLiteralChar c = true) :
    ∃ rest, cs = literal ++ rest ∧ unifyLineEnds rest = after := by
  induction literal generalizing cs with
  | nil => exact ⟨cs, rfl, h⟩
  | cons c literal ih =>
    obtain ⟨hc, htailLiteral⟩ := List.forall_mem_cons.1 hliteral
    unfold unifyLineEnds at h
    split at h
    · cases h
    · -- A line end is no character of a number.
      obtain ⟨rfl, -⟩ := List.cons.inj h
      cases hc
    · obtain ⟨rfl, htail⟩ := List.cons.inj h
      obtain ⟨rest, rfl, hrest⟩ := ih htail htailLiteral
      exact ⟨rest, rfl, hrest⟩

/-- The first character is no line end, or it stays one. -/
theorem isLiteralChar_head?_unifyLineEnds (cs : List Char) :
    (∀ c ∈ (unifyLineEnds cs).head?, isLiteralChar c = false) ↔
      ∀ c ∈ cs.head?, isLiteralChar c = false := by
  unfold unifyLineEnds
  split
  · rfl
  · exact iff_of_true (fun c hc => by cases hc; rfl) (fun c hc => by cases hc; rfl)
  · rfl

end Token

/-! ### Literals as values -/

/-- The characters of a text, as they are cut into tokens. -/
def textChars (text : String) : List Char :=
  Token.unifyLineEnds (Token.dropByteOrderMark text.toList)

/-- What is written from the value on that a key has, if an equals sign follows the key; the key is
the token with that many others before it. -/
def valueChars? (text : String) (place : ℕ) : Option (List Char) :=
  match (Token.after (place + 1) (textChars text)).dropWhile Quote.isIndent with
  | '=' :: cs => some (cs.dropWhile Quote.isIndent)
  | _ => none

/-- Characters of a number are what is written as the value that a key has, and they cannot go on.
-/
def IsLiteralAt (text : String) (place : ℕ) (literal : List Char) : Prop :=
  literal ≠ [] ∧ (∀ c ∈ literal, Token.isLiteralChar c = true) ∧
    ∃ before after, text.toList = before ++ literal ++ after ∧
      (∀ c ∈ after.head?, Token.isLiteralChar c = false) ∧
      valueChars? text place = some (literal ++ Token.unifyLineEnds after)

theorem suffix_valueChars? {text : String} {place : ℕ} {cs : List Char}
    (h : valueChars? text place = some cs) : cs <:+ textChars text := by
  unfold valueChars? at h
  split at h
  · next ds hds =>
    obtain rfl := Option.some.inj h
    have hline : '=' :: ds <:+ textChars text :=
      hds ▸ (List.dropWhile_suffix _).trans (Token.suffix_after _ _)
    exact (List.dropWhile_suffix _).trans ((List.suffix_cons '=' ds).trans hline)
  · cases h

/-- What stands behind a part of the text, as it is cut, stands behind a part of the text. -/
theorem exists_of_suffix_textChars {text : String} {cs : List Char} (h : cs <:+ textChars text) :
    ∃ before after, text.toList = before ++ after ∧ Token.unifyLineEnds after = cs := by
  obtain ⟨before, hbefore⟩ := h
  obtain ⟨before', after', hdrop, hafter⟩ := Token.exists_of_unifyLineEnds_append hbefore.symm
  unfold Token.dropByteOrderMark at hdrop
  split at hdrop
  · next ds hds =>
    refine ⟨'\ufeff' :: before', after', ?_, hafter⟩
    rw [hds, hdrop]
    rfl
  · exact ⟨before', after', hdrop, hafter⟩

/-- **The literal of a key** is the longest run of characters of a number with which its value
starts. -/
theorem isLiteralAt_iff {text : String} {place : ℕ} {literal : List Char} :
    IsLiteralAt text place literal ↔
      literal ≠ [] ∧ ∃ cs, valueChars? text place = some cs ∧
        literal = cs.takeWhile Token.isLiteralChar := by
  constructor
  · rintro ⟨hne, hliteral, before, after, -, hafter, hvalue⟩
    refine ⟨hne, _, hvalue, ?_⟩
    have hhead := (Token.isLiteralChar_head?_unifyLineEnds after).2 hafter
    exact (Text.takeWhile_append_of_head? hliteral hhead).1.symm
  · rintro ⟨hne, cs, hvalue, rfl⟩
    obtain ⟨before, after, htext, hunify⟩ := exists_of_suffix_textChars (suffix_valueChars? hvalue)
    have hliteral : ∀ c ∈ cs.takeWhile Token.isLiteralChar, Token.isLiteralChar c = true :=
      fun c hc => List.mem_takeWhile_imp hc
    have hsplit : Token.unifyLineEnds after
        = cs.takeWhile Token.isLiteralChar ++ cs.dropWhile Token.isLiteralChar := by
      rw [hunify, List.takeWhile_append_dropWhile]
    obtain ⟨rest, rfl, hrest⟩ := Token.exists_of_unifyLineEnds_literal hsplit hliteral
    refine ⟨hne, hliteral, before, rest, ?_, ?_, ?_⟩
    · rw [htext, List.append_assoc]
    · rw [← Token.isLiteralChar_head?_unifyLineEnds, hrest]
      exact Text.eq_false_of_mem_head?_dropWhile
    · rw [hrest, List.takeWhile_append_dropWhile]
      exact hvalue

end RegisterTables.Toml
