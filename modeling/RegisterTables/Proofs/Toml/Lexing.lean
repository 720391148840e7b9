import RegisterTables.Proofs.Numeral
import RegisterTables.Proofs.Toml.Spelling
import RegisterTables.Toml.Token

/-!
# Cutting a text into tokens

What stands in front of a text is cut into tokens of its own wherever no token could reach further:
a word in front of what is no part of it (`Token.ofChars_word`), a basic string in front of
anything but another mark (`Token.ofChars_quoted`). The tokens of a text that is put together from
such pieces are therefore put together in the same way.

A token bears its place in the text. `placed` gives places from some number on, so that it can be
said of a part of a text where its tokens are.
-/

namespace RegisterTables.Toml

namespace Token

/-- The first token of a text is followed by those of what it leaves. -/
theorem ofChars_cons {c : Char} {cs rest : List Char} {t : Token} (h : read c cs = .ok (t, rest)) :
    ofChars (c :: cs) = t :: ofChars rest := by
  rw [ofChars]
  split
  · next fault hfault => simp [h] at hfault
  · next u tail hu =>
    rw [h, Except.ok.injEq, Prod.mk.injEq] at hu
    rw [hu.1, hu.2]

/-! ### Words and blanks -/

/-- A character of a word starts neither a blank nor a comment. -/
theorem isIndent_of_isWordChar {c : Char} (h : isWordChar c = true) :
    Quote.isIndent c = false ∧ c ≠ '#' := by
  constructor
  · by_contra hindent
    simp only [Quote.isIndent, Bool.not_eq_false, Bool.or_eq_true, beq_iff_eq] at hindent
    rcases hindent with rfl | rfl
    · exact absurd h (by decide)
    · exact absurd h (by decide)
  · rintro rfl
    exact absurd h (by decide)

/-- A word ends in front of what is no part of it. -/
theorem ofChars_word {c : Char} {w rest : List Char} (hw : ∀ d ∈ c :: w, isWordChar d = true)
    (hrest : ∀ d ∈ rest.head?, isWordChar d = false) :
    ofChars (c :: w ++ rest) = word (c :: w) :: ofChars rest := by
  have hc : isWordChar c = true := hw c List.mem_cons_self
  obtain ⟨hindent, hcomment⟩ := isIndent_of_isWordChar hc
  obtain ⟨htake, hdrop⟩ :=
    Text.takeWhile_append_of_head? (fun d hd => hw d (List.mem_cons_of_mem _ hd)) hrest
  rw [List.cons_append]
  refine ofChars_cons ?_
  rw [read, hindent, if_neg Bool.false_ne_true, if_neg hcomment, if_pos hc, htake, hdrop]

/-- A word ends in front of a character that is no part of it. -/
theorem ofChars_word_cons {c d : Char} {w rest : List Char} (hw : (c :: w).all isWordChar = true)
    (hd : isWordChar d = false) :
    ofChars (c :: w ++ d :: rest) = word (c :: w) :: ofChars (d :: rest) := by
  refine ofChars_word (List.all_eq_true.1 hw) ?_
  intro e he
  obtain rfl : d = e := Option.some.inj he
  exact hd

/-- A single space ends in front of what is no blank. -/
theorem ofChars_space {rest : List Char} (hrest : ∀ c ∈ rest.head?, Quote.isIndent c = false) :
    ofChars (' ' :: rest) = blank :: ofChars rest := by
  have hdrop := (Text.takeWhile_append_of_head? (w := []) (by simp) hrest).2
  refine ofChars_cons ?_
  rw [read, if_pos (by decide)]
  exact congrArg (fun r => Except.ok (blank, r)) hdrop

/-! ### Strings -/

/-- A basic string ends in front of anything but another mark. -/
theorem ofChars_quoted (spelling : Spelling) (s : String) {rest : List Char}
    (hrest : rest.head? ≠ some '"') :
    ofChars (spelling.quoted s ++ rest) = string s.toList false :: ofChars rest := by
  rw [Spelling.quoted, List.cons_append, List.cons_append, List.append_assoc]
  refine ofChars_cons ?_
  have hread := Quote.read_quoted spelling s.toList hrest
  rw [read, if_neg (by decide), if_neg (by decide), if_neg (by decide)]
  show (Quote.read .basic _).map _ = _
  rw [List.singleton_append, hread]
  rfl

/-! ### Line ends -/

/-- A text without carriage returns has no line ends of two characters. -/
theorem unifyLineEnds_of_notMem {cs : List Char} (h : '\r' ∉ cs) : unifyLineEnds cs = cs := by
  induction cs with
  | nil => rfl
  | cons c cs ih =>
    rw [List.mem_cons, not_or] at h
    have hrest := ih h.2
    unfold unifyLineEnds
    split
    · next heq => simp at heq
    · next heq => exact absurd (List.cons.inj heq).1.symm h.1
    · next heq =>
      obtain ⟨rfl, rfl⟩ := List.cons.inj heq
      rw [hrest]

/-- A text is cut as it is if it holds no carriage return and starts with no byte order mark. -/
theorem ofText_ofList {cs : List Char} (hreturn : '\r' ∉ cs) (hmark : cs.head? ≠ some '\ufeff') :
    ofText (String.ofList cs) = ofChars cs := by
  have hdrop : dropByteOrderMark cs = cs := by
    unfold dropByteOrderMark
    split
    · next heq => exact absurd rfl hmark
    · rfl
  rw [ofText, String.toList_ofList, hdrop, unifyLineEnds_of_notMem hreturn]

end Token

/-- A basic string holds no carriage return. -/
theorem Spelling.carriageReturn_notMem_quoted (spelling : Spelling) (s : String) :
    '\r' ∉ spelling.quoted s := by
  have hspelled : '\r' ∉ s.toList.flatMap spelling.ofChar := fun h => by
    obtain ⟨c, -, hc⟩ := List.mem_flatMap.1 h
    exact (spelling.spells c).carriageReturn_notMem hc
  simpa [quoted] using hspelled

/-! ### Places -/

/-- Tokens with their places, which are counted from `n` on. -/
def placed (n : ℕ) (ts : List Token) : List Lexeme :=
  (ts.zipIdx n).map fun (t, i) => ⟨t, i⟩

@[simp] theorem placed_nil (n : ℕ) : placed n [] = [] := rfl

@[simp] theorem placed_cons (n : ℕ) (t : Token) (ts : List Token) :
    placed n (t :: ts) = ⟨t, n⟩ :: placed (n + 1) ts := rfl

/-- The places go on where the first tokens end. -/
theorem placed_append (n : ℕ) (ts us : List Token) :
    placed n (ts ++ us) = placed n ts ++ placed (n + ts.length) us := by
  induction ts generalizing n with
  | nil => rfl
  | cons t ts ih =>
    have hlength : n + 1 + ts.length = n + (ts.length + 1) := by omega
    rw [List.cons_append, placed_cons, placed_cons, ih, List.cons_append, List.length_cons, hlength]

theorem lexemes_eq_placed (text : String) : lexemes text = placed 0 (Token.ofText text) := rfl

theorem length_placed (n : ℕ) (ts : List Token) : (placed n ts).length = ts.length := by
  rw [placed, List.length_map, List.length_zipIdx]

end RegisterTables.Toml
