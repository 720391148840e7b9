import RegisterTables.Proofs.Json.Nesting
import RegisterTables.Proofs.Toml.Assembly
import RegisterTables.Proofs.Toml.Grammar

/-!
# Writing TOML on one line

A tree of texts, truth values and integers is written as a value between brackets and braces,
without blanks, under a key that is a word. `Toml.Inline.parse_text` says that such a text is read
as a table with a single value that shows the tree, for any spelling of the strings.

As with other formats, the text is cut into the tokens of the tree (`Toml.Inline.ofChars_chars`),
and the tokens are read wherever they stand (`Toml.Inline.reads`). The keys keep the places of their
tokens. What is said of a table is therefore that its keys ascend, not where they are.
-/

namespace RegisterTables.Toml

open Json (Tree)

/-! ### Values that show a tree -/

mutual

/-- The value shows the tree. The entries of a table may have been added in any order; it is the
order of their keys in the text that counts. -/
def IsShownBy : Tree → Value → Prop
  | .string s, w => w = .string s
  | .bool b, w => w = .bool b
  | .integer i, w => w = .number (toString i)
  | .array items, w => ∃ ws, w = .array ws ∧ ItemsShownBy items ws
  | .object members, w =>
    ∃ t written : Table, w = .table t ∧ written.Perm t ∧
      written.Pairwise (fun a b => a.1.place < b.1.place) ∧ MembersShownBy members written

/-- The values show the items of a list. -/
def ItemsShownBy : List Tree → List Value → Prop
  | [], ws => ws = []
  | v :: items, ws => ∃ w ws', ws = w :: ws' ∧ IsShownBy v w ∧ ItemsShownBy items ws'

/-- The entries show the members of an object, in their order. -/
def MembersShownBy : List (String × Tree) → Table → Prop
  | [], t => t = []
  | (name, v) :: members, t =>
    ∃ key w t', t = (key, w) :: t' ∧ key.name = name ∧ IsShownBy v w ∧ MembersShownBy members t'

end

namespace Inline

variable (spelling : Spelling)

/-! ### Texts -/

mutual

/-- The tree as a text. -/
def chars : Tree → List Char
  | .string s => spelling.quoted s
  | .bool b => (toString b).toList
  | .integer i => (toString i).toList
  | .array [] => ['[', ']']
  | .array (v :: items) => '[' :: (chars v ++ itemsChars items)
  | .object [] => ['{', '}']
  | .object ((name, v) :: members) =>
    '{' :: (spelling.quoted name ++ '=' :: (chars v ++ membersChars members))

/-- The further items of a list, and its end. -/
def itemsChars : List Tree → List Char
  | [] => [']']
  | v :: items => ',' :: (chars v ++ itemsChars items)

/-- The further members of an object, and its end. -/
def membersChars : List (String × Tree) → List Char
  | [] => ['}']
  | (name, v) :: members =>
    ',' :: (spelling.quoted name ++ '=' :: (chars v ++ membersChars members))

end

mutual

/-- The tree as tokens. -/
def tokens : Tree → List Token
  | .string s => [.string s.toList false]
  | .bool b => [.word (toString b).toList]
  | .integer i => [.word (toString i).toList]
  | .array [] => [.leftBracket, .rightBracket]
  | .array (v :: items) => .leftBracket :: (tokens v ++ itemsTokens items)
  | .object [] => [.leftBrace, .rightBrace]
  | .object ((name, v) :: members) =>
    .leftBrace :: .string name.toList false :: .equals :: (tokens v ++ membersTokens members)

/-- The tokens of the further items of a list, and of its end. -/
def itemsTokens : List Tree → List Token
  | [] => [.rightBracket]
  | v :: items => .comma :: (tokens v ++ itemsTokens items)

/-- The tokens of the further members of an object, and of its end. -/
def membersTokens : List (String × Tree) → List Token
  | [] => [.rightBrace]
  | (name, v) :: members =>
    .comma :: .string name.toList false :: .equals :: (tokens v ++ membersTokens members)

end

/-! ### Cutting the text -/

/-- A value may end in front of this: it goes on neither with a word nor with a mark. -/
def EndsValue (rest : List Char) : Prop :=
  ∀ c ∈ rest.head?, Token.isWordChar c = false ∧ c ≠ '"'

theorem endsValue_itemsChars (items : List Tree) (rest : List Char) :
    EndsValue (itemsChars spelling items ++ rest) := by
  cases items with
  | nil => simp [EndsValue, itemsChars, Token.isWordChar]
  | cons v items => simp [EndsValue, itemsChars, Token.isWordChar]

theorem endsValue_membersChars (members : List (String × Tree)) (rest : List Char) :
    EndsValue (membersChars spelling members ++ rest) := by
  cases members with
  | nil => simp [EndsValue, membersChars, Token.isWordChar]
  | cons m members => simp [EndsValue, membersChars, Token.isWordChar]

variable {spelling}

/-- A string is cut off in front of what ends a value. -/
theorem ofChars_string (s : String) {rest : List Char} (hends : EndsValue rest) :
    Token.ofChars (spelling.quoted s ++ rest) = .string s.toList false :: Token.ofChars rest :=
  Token.ofChars_quoted spelling s fun h => (hends _ h).2 rfl

/-- A word is cut off in front of what ends a value. -/
theorem ofChars_word {w rest : List Char} (hne : w ≠ [])
    (hw : ∀ c ∈ w, Token.isWordChar c = true) (hends : EndsValue rest) :
    Token.ofChars (w ++ rest) = .word w :: Token.ofChars rest := by
  obtain ⟨c, cs, rfl⟩ := List.exists_cons_of_ne_nil hne
  exact Token.ofChars_word hw fun d hd => (hends d hd).1

theorem isWordChar_of_mem_toString {i : ℤ} {c : Char} (h : c ∈ (toString i).toList) :
    Token.isWordChar c = true := by
  rcases Text.eq_or_isDigit_of_mem_toString h with rfl | hc
  · rfl
  · simp [Token.isWordChar, Char.isAlphanum, hc]

/-- A member is cut off if its value and the further members are. -/
theorem ofChars_member (name : String) {v : Tree} {members : List (String × Tree)}
    {rest : List Char}
    (hv : Token.ofChars (chars spelling v ++ (membersChars spelling members ++ rest))
      = tokens v ++ Token.ofChars (membersChars spelling members ++ rest))
    (hmembers : Token.ofChars (membersChars spelling members ++ rest)
      = membersTokens members ++ Token.ofChars rest) :
    Token.ofChars (spelling.quoted name ++ '=' :: (chars spelling v ++
        membersChars spelling members) ++ rest)
      = .string name.toList false :: .equals :: (tokens v ++ membersTokens members ++
          Token.ofChars rest) := by
  have hname :
      EndsValue ('=' :: (chars spelling v ++ (membersChars spelling members ++ rest))) := by
    simp [EndsValue, Token.isWordChar]
  rw [List.append_assoc, List.cons_append, List.append_assoc, ofChars_string name hname,
    Token.ofChars_cons rfl, hv, hmembers, List.append_assoc]

mutual

/-- **The text of a tree is cut into its tokens** in front of what ends a value. -/
theorem ofChars_chars (v : Tree) {rest : List Char} (hends : EndsValue rest) :
    Token.ofChars (chars spelling v ++ rest) = tokens v ++ Token.ofChars rest := by
  match v with
  | .string s => exact ofChars_string s hends
  | .bool true => exact ofChars_word (List.cons_ne_nil _ _) (List.all_eq_true.1 rfl) hends
  | .bool false => exact ofChars_word (List.cons_ne_nil _ _) (List.all_eq_true.1 rfl) hends
  | .integer i =>
    obtain ⟨c, cs, hcons, -⟩ := Text.exists_cons_toString i
    have hne : (toString i).toList ≠ [] := by
      rw [hcons]
      exact List.cons_ne_nil c cs
    rw [chars, tokens]
    exact ofChars_word hne (fun c hc => isWordChar_of_mem_toString hc) hends
  | .array [] =>
    rw [chars, tokens, List.cons_append, Token.ofChars_cons rfl, List.cons_append,
      Token.ofChars_cons rfl]
    rfl
  | .array (v :: items) =>
    -- What follows an item is a comma or a bracket, and so it ends the item.
    have hv := ofChars_chars v (endsValue_itemsChars spelling items rest)
    rw [chars, tokens, List.cons_append, Token.ofChars_cons rfl, List.append_assoc, hv,
      ofChars_itemsChars items rest, List.cons_append, List.append_assoc]
  | .object [] =>
    rw [chars, tokens, List.cons_append, Token.ofChars_cons rfl, List.cons_append,
      Token.ofChars_cons rfl]
    rfl
  | .object ((name, v) :: members) =>
    have hmembers := ofChars_membersChars members rest
    have hv := ofChars_chars v (endsValue_membersChars spelling members rest)
    have hmember := ofChars_member name hv hmembers
    rw [chars, tokens, List.cons_append, Token.ofChars_cons rfl, hmember]
    rfl

theorem ofChars_itemsChars (items : List Tree) (rest : List Char) :
    Token.ofChars (itemsChars spelling items ++ rest)
      = itemsTokens items ++ Token.ofChars rest := by
  match items with
  | [] =>
    rw [itemsChars, itemsTokens, List.cons_append, Token.ofChars_cons rfl]
    rfl
  | v :: items =>
    have hv := ofChars_chars v (endsValue_itemsChars spelling items rest)
    rw [itemsChars, itemsTokens, List.cons_append, Token.ofChars_cons rfl, List.append_assoc, hv,
      ofChars_itemsChars items rest, List.cons_append, List.append_assoc]

theorem ofChars_membersChars (members : List (String × Tree)) (rest : List Char) :
    Token.ofChars (membersChars spelling members ++ rest)
      = membersTokens members ++ Token.ofChars rest := by
  match members with
  | [] =>
    rw [membersChars, membersTokens, List.cons_append, Token.ofChars_cons rfl]
    rfl
  | (name, v) :: members =>
    have hmembers := ofChars_membersChars members rest
    have hv := ofChars_chars v (endsValue_membersChars spelling members rest)
    have hmember := ofChars_member name hv hmembers
    rw [membersChars, membersTokens, List.cons_append, Token.ofChars_cons rfl, hmember]
    rfl

end

/-! ### Reading the tokens -/

/-- A tree has a token, with which a value may start. -/
theorem exists_cons_tokens (v : Tree) : ∃ t ts, tokens v = t :: ts ∧ t.startsValue = true := by
  match v with
  | .string s => exact ⟨_, _, rfl, rfl⟩
  | .bool b => exact ⟨_, _, rfl, rfl⟩
  | .integer i => exact ⟨_, _, rfl, rfl⟩
  | .array [] => exact ⟨_, _, rfl, rfl⟩
  | .array (v :: items) => exact ⟨_, _, rfl, rfl⟩
  | .object [] => exact ⟨_, _, rfl, rfl⟩
  | .object ((name, v) :: members) => exact ⟨_, _, rfl, rfl⟩

theorem startsValue_tokens (v : Tree) (n : ℕ) (ts : List Lexeme) :
    StartsValue (placed n (tokens v) ++ ts) := by
  obtain ⟨t, us, htokens, ht⟩ := exists_cons_tokens v
  rw [htokens]
  exact ⟨_, _, rfl, ht⟩

section Steps

variable {fuel n m : ℕ} {rest us ts : List Lexeme} {item : Expr}

/-- Behind an item a comma leads on to further items, of which there is at least one here. -/
theorem arrayItems_of_comma {items : List Expr} (hstarts : StartsValue rest)
    (hitem : value fuel rest = .ok (item, ⟨.comma, m⟩ :: us))
    (hitems : arrayItems fuel us = .ok (items, ts)) :
    arrayItems (fuel + 1) rest = .ok (item :: items, ts) := by
  rw [arrayItems, hstarts.skipLines_eq]
  obtain ⟨⟨t, n⟩, rest, rfl, ht⟩ := hstarts
  cases t with
  | string _ _ | word _ | leftBracket | leftBrace =>
    simp only [bind, Except.bind, hitem, skipLines, hitems]
    rfl
  | _ => exact absurd ht Bool.false_ne_true

/-- Behind the last item stands the bracket. -/
theorem arrayItems_of_rightBracket (hstarts : StartsValue rest)
    (hitem : value fuel rest = .ok (item, ⟨.rightBracket, m⟩ :: ts)) :
    arrayItems (fuel + 1) rest = .ok ([item], ts) := by
  rw [arrayItems, hstarts.skipLines_eq]
  obtain ⟨⟨t, n⟩, rest, rfl, ht⟩ := hstarts
  cases t with
  | string _ _ | word _ | leftBracket | leftBrace =>
    simp only [bind, Except.bind, hitem, skipLines, expect_self]
    rfl
  | _ => exact absurd ht Bool.false_ne_true

/-- Behind an entry a comma leads on to further entries. -/
theorem inlineEntries_of_comma (key : String) (body : Body) (hstarts : StartsValue rest)
    (hitem : value fuel rest = .ok (item, ⟨.comma, m⟩ :: us)) :
    inlineEntries (fuel + 1) body (⟨.string key.toList false, n⟩ :: ⟨.equals, n + 1⟩ :: rest)
      = inlineEntries fuel (body ++ [(⟨key, n⟩, item)]) us := by
  have hskip : skipBlank (⟨.comma, m⟩ :: us) = ⟨.comma, m⟩ :: us := rfl
  rw [inlineEntries, keyPath_equals (.inr rfl)]
  simp only [bind, Except.bind, expect_self, hstarts.skipBlank_eq, hitem, hskip, Body.insert]

/-- Behind the last entry stands the brace. -/
theorem inlineEntries_of_rightBrace (key : String) (body : Body) (hstarts : StartsValue rest)
    (hitem : value fuel rest = .ok (item, ⟨.rightBrace, m⟩ :: ts)) :
    inlineEntries (fuel + 1) body (⟨.string key.toList false, n⟩ :: ⟨.equals, n + 1⟩ :: rest)
      = .ok (body ++ [(⟨key, n⟩, item)], ts) := by
  have hskip : skipBlank (⟨.rightBrace, m⟩ :: ts) = ⟨.rightBrace, m⟩ :: ts := rfl
  rw [inlineEntries, keyPath_equals (.inr rfl)]
  simp only [bind, Except.bind, expect_self, hstarts.skipBlank_eq, hitem, hskip, Body.insert]
  rfl

/-- A table that is not empty is read as its entries are, the first of which has a quoted key. -/
theorem value_leftBrace {body : Body} (hstarts : StartsValue rest)
    (hentries : inlineEntries fuel [] rest = .ok (body, ts)) :
    value (fuel + 1) (⟨.leftBrace, n⟩ :: rest) = .ok (.inline body, ts) := by
  have hskip := hstarts.skipBlank_eq
  obtain ⟨⟨t, n⟩, rest, rfl, ht⟩ := hstarts
  cases t with
  | string _ _ | word _ | leftBracket | leftBrace =>
    simp only [value, hskip, bind, Except.bind, hentries]
    rfl
  | _ => exact absurd ht Bool.false_ne_true

end Steps

/-- The tokens of a tree are read as a value that shows the tree, if the fuel is not below their
number. The value is no group of dotted keys. -/
def Reads (v : Tree) : Prop :=
  ∀ n fuel ts, (tokens v).length ≤ fuel → EndsNumber ts →
    ∃ e w, value fuel (placed n (tokens v) ++ ts) = .ok (e, ts) ∧ e.value = .ok w ∧
      IsShownBy v w ∧ ∀ body, e ≠ .group body

/-- The items of a list are read if each of them is. -/
theorem arrayItems_tokens {v : Tree} {items : List Tree} (h : ∀ w ∈ v :: items, Reads w)
    (n fuel : ℕ) (ts : List Lexeme)
    (hfuel : (tokens v).length + (itemsTokens items).length ≤ fuel) :
    ∃ es ws, arrayItems fuel (placed n (tokens v ++ itemsTokens items) ++ ts) = .ok (es, ts) ∧
      Expr.values es = .ok ws ∧ ItemsShownBy (v :: items) ws := by
  have hv := h v List.mem_cons_self
  -- Each item takes a token for the comma or the bracket behind it, which pays for the step.
  induction items generalizing v n fuel with
  | nil =>
    rw [itemsTokens, List.length_singleton] at hfuel
    obtain ⟨fuel, rfl⟩ : ∃ f, fuel = f + 1 := Nat.exists_eq_succ_of_ne_zero (by omega)
    obtain ⟨e, w, hread, hvalue, hshows, -⟩ :=
      hv n fuel (placed (n + (tokens v).length) [.rightBracket] ++ ts) (by omega)
        (by simp [EndsNumber])
    rw [itemsTokens, placed_append, List.append_assoc]
    refine ⟨[e], [w], arrayItems_of_rightBracket (startsValue_tokens v n _) hread, ?_,
      w, [], rfl, hshows, rfl⟩
    rw [Expr.values, hvalue]
    rfl
  | cons w items ih =>
    rw [itemsTokens, List.length_cons, List.length_append] at hfuel
    obtain ⟨fuel, rfl⟩ : ∃ f, fuel = f + 1 := Nat.exists_eq_succ_of_ne_zero (by omega)
    have hrest : ∀ u ∈ w :: items, Reads u := fun u hu => h u (List.mem_cons_of_mem _ hu)
    obtain ⟨es, ws, hreads, hvalues, hshown⟩ :=
      ih hrest (n + (tokens v).length + 1) fuel (by omega) (hrest w List.mem_cons_self)
    obtain ⟨e, x, hread, hvalue, hshows, -⟩ :=
      hv n fuel (placed (n + (tokens v).length) (.comma :: (tokens w ++ itemsTokens items)) ++ ts)
        (by omega) (by simp [EndsNumber])
    rw [itemsTokens, placed_append, List.append_assoc]
    refine ⟨e :: es, x :: ws, arrayItems_of_comma (startsValue_tokens v n _) hread hreads, ?_,
      x, ws, rfl, hshows, hshown⟩
    rw [Expr.values, hvalue, hvalues]
    rfl

/-- The entries of a table are read if each of their values is. Their keys ascend from the first one
on, and they go to the places of their names in any table that has none of these. -/
theorem inlineEntries_tokens {name : String} {v : Tree} {members : List (String × Tree)}
    (h : ∀ m ∈ (name, v) :: members, Reads m.2) (n fuel : ℕ) (body : Body) (ts : List Lexeme)
    (hfuel : (tokens v).length + (membersTokens members).length ≤ fuel) :
    ∃ (entries : Body) (written : Table),
      inlineEntries fuel body (placed n (.string name.toList false :: .equals ::
        (tokens v ++ membersTokens members)) ++ ts) = .ok (body ++ entries, ts) ∧
      (∀ t : Table, (t.map (·.1.name) ++ name :: members.map Prod.fst).Nodup →
        t.insertAll entries = .ok (t.insertEach written)) ∧
      (∀ p ∈ written, n ≤ p.1.place) ∧
      written.Pairwise (fun a b => a.1.place < b.1.place) ∧
      MembersShownBy ((name, v) :: members) written := by
  have hv : Reads v := h (name, v) List.mem_cons_self
  -- The induction leaves open which entries were read before these (`body`), and so which table
  -- they are added to (`t`).
  induction members generalizing name v n fuel body with
  | nil =>
    rw [membersTokens, List.length_singleton] at hfuel
    obtain ⟨fuel, rfl⟩ : ∃ f, fuel = f + 1 := Nat.exists_eq_succ_of_ne_zero (by omega)
    obtain ⟨e, w, hread, hvalue, hshows, -⟩ :=
      hv (n + 2) fuel (placed (n + 2 + (tokens v).length) [.rightBrace] ++ ts) (by omega)
        (by simp [EndsNumber])
    have hstep := inlineEntries_of_rightBrace (n := n) name body (startsValue_tokens v _ _) hread
    refine ⟨[(⟨name, n⟩, e)], [(⟨name, n⟩, w)], ?_, ?_, by simp, List.pairwise_singleton _ _,
      ⟨name, n⟩, w, [], rfl, rfl, hshows, rfl⟩
    · rw [placed_cons, placed_cons, membersTokens, placed_append, List.cons_append,
        List.cons_append, List.append_assoc]
      exact hstep
    · intro t ht
      rw [Table.insertAll_cons [] ht hvalue, Table.insertAll]
      rfl
  | cons m members ih =>
    obtain ⟨other, x⟩ := m
    simp only [membersTokens, List.length_cons, List.length_append] at hfuel
    obtain ⟨fuel, rfl⟩ : ∃ f, fuel = f + 1 := Nat.exists_eq_succ_of_ne_zero (by omega)
    obtain ⟨e, w, hread, hvalue, hshows, -⟩ :=
      hv (n + 2) fuel (placed (n + 2 + (tokens v).length) (membersTokens ((other, x) :: members))
        ++ ts) (by omega) (by simp [EndsNumber, membersTokens])
    have hstep := inlineEntries_of_comma (n := n) name body (startsValue_tokens v _ _) hread
    have hrest : ∀ u ∈ (other, x) :: members, Reads u.2 :=
      fun u hu => h u (List.mem_cons_of_mem _ hu)
    obtain ⟨entries, written, hentries, hinsert, hplaces, hascending, hshown⟩ :=
      ih hrest (n + 2 + (tokens v).length + 1) fuel (body ++ [(⟨name, n⟩, e)]) (by omega)
        (hrest _ List.mem_cons_self)
    refine ⟨(⟨name, n⟩, e) :: entries, (⟨name, n⟩, w) :: written, ?_, ?_, ?_, ?_,
      ⟨name, n⟩, w, written, rfl, rfl, hshows, hshown⟩
    · rw [placed_cons, placed_cons, placed_append, List.cons_append, List.cons_append,
        List.append_assoc]
      have hassoc : body ++ [(⟨name, n⟩, e)] ++ entries = body ++ (⟨name, n⟩, e) :: entries := by
        rw [List.append_assoc, List.singleton_append]
      rw [← hassoc, ← hentries]
      exact hstep
    · intro t ht
      rw [Table.insertAll_cons entries ht hvalue, hinsert _ (Table.nodup_insert ht)]
      rfl
    · rw [List.forall_mem_cons]
      exact ⟨le_rfl, fun p hp => le_trans (by omega) (hplaces p hp)⟩
    · rw [List.pairwise_cons]
      exact ⟨fun p hp => lt_of_lt_of_le (by show n < _; omega) (hplaces p hp), hascending⟩

theorem reads_array {items : List Tree} (h : ∀ w ∈ items, Reads w) : Reads (.array items) := by
  intro n fuel ts hfuel _
  cases items with
  | nil =>
    simp only [tokens, List.length_cons, List.length_nil] at hfuel
    obtain ⟨fuel, rfl⟩ : ∃ f, fuel = f + 2 := ⟨fuel - 2, by omega⟩
    exact ⟨.array [], .array [], rfl, rfl, ⟨[], rfl, rfl⟩, by simp⟩
  | cons v items =>
    rw [tokens, List.length_cons, List.length_append] at hfuel
    obtain ⟨fuel, rfl⟩ : ∃ f, fuel = f + 1 := Nat.exists_eq_succ_of_ne_zero (by omega)
    obtain ⟨es, ws, hread, hvalues, hshown⟩ := arrayItems_tokens h (n + 1) fuel ts (by omega)
    refine ⟨.array es, .array ws, ?_, ?_, ⟨ws, rfl, hshown⟩, by simp⟩
    · rw [tokens, placed_cons, List.cons_append]
      simp only [value, bind, Except.bind, hread]
      rfl
    · rw [Expr.value, hvalues]
      rfl

theorem reads_object {members : List (String × Tree)} (hnodup : (members.map Prod.fst).Nodup)
    (h : ∀ m ∈ members, Reads m.2) : Reads (.object members) := by
  intro n fuel ts hfuel _
  cases members with
  | nil =>
    simp only [tokens, List.length_cons, List.length_nil] at hfuel
    obtain ⟨fuel, rfl⟩ : ∃ f, fuel = f + 1 := Nat.exists_eq_succ_of_ne_zero (by omega)
    exact ⟨.inline [], .table [], rfl, rfl, ⟨[], [], rfl, .nil, .nil, rfl⟩, by simp⟩
  | cons m members =>
    obtain ⟨name, v⟩ := m
    simp only [tokens, List.length_cons, List.length_append] at hfuel
    obtain ⟨fuel, rfl⟩ : ∃ f, fuel = f + 1 := Nat.exists_eq_succ_of_ne_zero (by omega)
    obtain ⟨entries, written, hread, hinsert, -, hascending, hshown⟩ :=
      inlineEntries_tokens h (n + 1) fuel [] ts (by omega)
    refine ⟨.inline entries, .table (Table.insertEach [] written), ?_, ?_,
      ⟨_, written, rfl, (Table.perm_insertEach [] written).symm, hascending, hshown⟩, by simp⟩
    · rw [tokens, placed_cons, List.cons_append]
      exact value_leftBrace ⟨_, _, rfl, rfl⟩ hread
    · rw [Expr.value, hinsert [] (by simpa using hnodup)]
      rfl

/-- A tree that is a single token is read as it is. -/
theorem reads_of_token {v : Tree} {t : Token} {e : Expr} {w : Value} (htokens : tokens v = [t])
    (h : ∀ n fuel ts, fuel ≠ 0 → EndsNumber ts → value fuel (⟨t, n⟩ :: ts) = .ok (e, ts))
    (hvalue : e.value = .ok w) (hshows : IsShownBy v w) (hgroup : ∀ body, e ≠ .group body) :
    Reads v := by
  intro n fuel ts hfuel hends
  rw [htokens, List.length_singleton] at hfuel
  rw [htokens]
  exact ⟨e, w, h n fuel ts (by omega) hends, hvalue, hshows, hgroup⟩

mutual

/-- **The tokens of a tree are read as a value that shows it.** -/
theorem reads : (v : Tree) → v.IsProper → Reads v
  | .string s, _ =>
    reads_of_token rfl (fun n _ ts hfuel _ => value_string hfuel s.toList false n ts) rfl
      (by rw [String.ofList_toList]; rfl) (by simp)
  | .bool b, _ =>
    reads_of_token rfl (fun n _ ts hfuel _ => value_bool hfuel b n ts) rfl rfl (by simp)
  | .integer _, ⟨hlow, hhigh⟩ =>
    reads_of_token rfl (fun n _ _ hfuel hends => value_integer hfuel hlow hhigh n hends) rfl rfl
      (by simp)
  | .array items, hproper => reads_array (reads_of_mem_items items hproper)
  | .object members, ⟨hnodup, hproper⟩ => reads_object hnodup (reads_of_mem_members members hproper)

theorem reads_of_mem_items : (items : List Tree) → Tree.ItemsProper items → ∀ w ∈ items, Reads w
  | [], _ => fun _ hw => absurd hw List.not_mem_nil
  | v :: items, ⟨hv, hitems⟩ => List.forall_mem_cons.2 ⟨reads v hv, reads_of_mem_items items hitems⟩

theorem reads_of_mem_members :
    (members : List (String × Tree)) → Tree.MembersProper members → ∀ m ∈ members, Reads m.2
  | [], _ => fun _ hm => absurd hm List.not_mem_nil
  | (_, v) :: members, ⟨hv, hmembers⟩ =>
    List.forall_mem_cons.2 ⟨reads v hv, reads_of_mem_members members hmembers⟩

end

/-! ### The text as a whole -/

variable (spelling)

/-- A tree under a key, as the only line of a text. -/
def text (key : String) (v : Tree) : String :=
  String.ofList (key.toList ++ '=' :: (chars spelling v ++ ['\n']))

/-- No integer holds a carriage return. -/
theorem carriageReturn_notMem_toString (i : ℤ) : '\r' ∉ (toString i).toList := fun h => by
  rcases Text.eq_or_isDigit_of_mem_toString h with h | h
  · exact absurd h (by decide)
  · exact absurd h (by decide)

mutual

/-- No tree holds a carriage return. -/
theorem carriageReturn_notMem_chars (v : Tree) : '\r' ∉ chars spelling v := by
  match v with
  | .string s => exact spelling.carriageReturn_notMem_quoted s
  | .bool b =>
    rw [chars]
    cases b <;> decide
  | .integer i => exact carriageReturn_notMem_toString i
  | .array [] => simp [chars]
  | .array (v :: items) =>
    simp [chars, carriageReturn_notMem_chars v, carriageReturn_notMem_itemsChars items]
  | .object [] => simp [chars]
  | .object ((name, v) :: members) =>
    simp [chars, spelling.carriageReturn_notMem_quoted name, carriageReturn_notMem_chars v,
      carriageReturn_notMem_membersChars members]

theorem carriageReturn_notMem_itemsChars (items : List Tree) :
    '\r' ∉ itemsChars spelling items := by
  match items with
  | [] => simp [itemsChars]
  | v :: items =>
    simp [itemsChars, carriageReturn_notMem_chars v, carriageReturn_notMem_itemsChars items]

theorem carriageReturn_notMem_membersChars (members : List (String × Tree)) :
    '\r' ∉ membersChars spelling members := by
  match members with
  | [] => simp [membersChars]
  | (name, v) :: members =>
    simp [membersChars, spelling.carriageReturn_notMem_quoted name, carriageReturn_notMem_chars v,
      carriageReturn_notMem_membersChars members]

end

/-- The tokens of a text. -/
theorem ofText_text {key : String} (hne : key.toList ≠ [])
    (hkey : ∀ c ∈ key.toList, Token.isWordChar c = true) (v : Tree) :
    Token.ofText (text spelling key v)
      = .word key.toList :: .equals :: (tokens v ++ [.newline]) := by
  have hreturn : '\r' ∉ key.toList := fun h => absurd (hkey _ h) (by decide)
  have hmark : (key.toList ++ '=' :: (chars spelling v ++ ['\n'])).head? ≠ some '\ufeff' := by
    obtain ⟨c, cs, hcons⟩ := List.exists_cons_of_ne_nil hne
    rw [hcons] at hkey ⊢
    intro h
    obtain rfl : c = '\ufeff' := Option.some.inj h
    exact absurd (hkey _ List.mem_cons_self) (by decide)
  have hends (rest : List Char) : EndsValue ('=' :: rest) ∧ EndsValue ('\n' :: rest) := by
    simp [EndsValue, Token.isWordChar]
  have hv : Token.ofChars (chars spelling v ++ ['\n']) = tokens v ++ Token.ofChars ['\n'] :=
    ofChars_chars v (hends []).2
  rw [text, Token.ofText_ofList (by simp [hreturn, carriageReturn_notMem_chars]) hmark,
    ofChars_word hne hkey (hends _).1, Token.ofChars_cons rfl, hv, Token.ofChars_cons rfl,
    Token.ofChars]

/-- A key with a tree behind it is read as an entry. -/
theorem entry_tokens (key : String) {v : Tree} (hproper : v.IsProper) :
    ∃ e w, entry [] (placed 0 (.word key.toList :: .equals :: (tokens v ++ [.newline])))
        = .ok ([(⟨key, 0⟩, e)], []) ∧
      e.value = .ok w ∧ IsShownBy v w ∧ ∀ body, e ≠ .group body := by
  have hkey : keyPath (placed 0 (.word key.toList :: .equals :: (tokens v ++ [.newline])))
      = .ok ([⟨key, 0⟩], ⟨.equals, 1⟩ :: placed 2 (tokens v ++ [.newline])) :=
    keyPath_equals (.inl rfl) 0 1 _
  have hlength : (placed 0 (.word key.toList :: .equals :: (tokens v ++ [.newline]))).length
      = (tokens v).length + 3 := by
    rw [length_placed, List.length_cons, List.length_cons, List.length_append,
      List.length_singleton]
  have hskip := (startsValue_tokens v 2 (placed (2 + (tokens v).length) [.newline])).skipBlank_eq
  obtain ⟨e, w, hread, hvalue, hshows, hgroup⟩ :=
    reads v hproper 2 (2 * ((tokens v).length + 3)) (placed (2 + (tokens v).length) [.newline])
      (by omega) (by simp [EndsNumber])
  refine ⟨e, w, ?_, hvalue, hshows, hgroup⟩
  rw [← placed_append] at hread hskip
  rw [entry, hkey, hlength]
  simp only [bind, Except.bind, expect_self, hskip, hread]
  rfl

/-- **What is written is read.** The text of a proper tree under a key that is a word is read as a
table with a single value, which shows the tree. -/
theorem parse_text (key : String) (hne : key.toList ≠ [])
    (hkey : ∀ c ∈ key.toList, Token.isWordChar c = true) {v : Tree} (hproper : v.IsProper) :
    ∃ w, Table.parse (text spelling key v) = .ok [(⟨key, 0⟩, w)] ∧ IsShownBy v w := by
  obtain ⟨e, w, hentry, hvalue, hshows, hgroup⟩ := entry_tokens key hproper
  have hplain : Body.IsPlain [(⟨key, 0⟩, e)] fun _ => w := by
    refine ⟨?_, ?_, List.nodup_singleton _⟩
    · intro p hp
      obtain rfl := List.mem_singleton.1 hp
      cases e with
      | group body => exact absurd rfl (hgroup body)
      | _ => rfl
    · intro p hp
      obtain rfl := List.mem_singleton.1 hp
      exact hvalue
  have hlines (fuel : ℕ) : lines (fuel + 1) ⟨[], false, []⟩
      (placed 0 (.word key.toList :: .equals :: (tokens v ++ [.newline])))
        = .ok [⟨[], false, [(⟨key, 0⟩, e)]⟩] := by
    rw [lines_of_entry rfl (by simp) (by simp) hentry]
    cases fuel with
    | zero => rfl
    | succ fuel => rfl
  refine ⟨w, ?_, hshows⟩
  rw [Table.parse, lexemes_eq_placed, ofText_text spelling hne hkey, Document.ofLexemes, hlines]
  exact hplain.assemble_nil 0

end Inline

end RegisterTables.Toml
