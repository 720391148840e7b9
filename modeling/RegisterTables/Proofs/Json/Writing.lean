import RegisterTables.Proofs.Json.Spelling

/-!
# Writing JSON

A tree of texts, truth values and integers is written without blanks. `Json.Tree.parse?_text` says
that the text is read as it was written, for any spelling of the strings.

The text is cut into the tokens of the tree wherever it stands in front of what ends a number
(`Json.Tree.ofChars?_chars`), and the tokens are read as the tree wherever they stand
(`Json.Tree.reads`). Both go by induction on the tree. What follows the first item of a list
is written with a comma in front of each further item, which is how the reader goes on.
-/

namespace RegisterTables.Json

/-- What may be written. -/
inductive Tree where
  /-- A text. -/
  | string (s : String)
  /-- A truth value. -/
  | bool (b : Bool)
  /-- An integer. -/
  | integer (i : ℤ)
  /-- A list. -/
  | array (items : List Tree)
  /-- Named values. A name may be repeated. -/
  | object (members : List (String × Tree))

/-- An integer as a number. -/
def Number.ofInt (i : ℤ) : Number :=
  ⟨decide (i < 0), Nat.toDigits 10 i.natAbs, [], none⟩

namespace Tree

variable (spelling : Spelling)

/-! ### Texts -/

mutual

/-- The tree as a text. -/
def chars : Tree → List Char
  | string s => spelling.quoted s
  | bool b => (toString b).toList
  | integer i => (toString i).toList
  | array [] => ['[', ']']
  | array (v :: items) => '[' :: (v.chars ++ itemsChars items)
  | object [] => ['{', '}']
  | object ((name, v) :: members) =>
    '{' :: (spelling.quoted name ++ ':' :: (v.chars ++ membersChars members))

/-- The further items of a list, and its end. -/
def itemsChars : List Tree → List Char
  | [] => [']']
  | v :: items => ',' :: (v.chars ++ itemsChars items)

/-- The further members of an object, and its end. -/
def membersChars : List (String × Tree) → List Char
  | [] => ['}']
  | (name, v) :: members =>
    ',' :: (spelling.quoted name ++ ':' :: (v.chars ++ membersChars members))

end

mutual

/-- The tree as tokens. -/
def tokens : Tree → List Token
  | string s => [.string (spelling.units s)]
  | bool b => [.bool b]
  | integer i => [.number (.ofInt i)]
  | array [] => [.leftBracket, .rightBracket]
  | array (v :: items) => .leftBracket :: (v.tokens ++ itemsTokens items)
  | object [] => [.leftBrace, .rightBrace]
  | object ((name, v) :: members) =>
    .leftBrace :: .string (spelling.units name) :: .colon :: (v.tokens ++ membersTokens members)

/-- The tokens of the further items of a list, and of its end. -/
def itemsTokens : List Tree → List Token
  | [] => [.rightBracket]
  | v :: items => .comma :: (v.tokens ++ itemsTokens items)

/-- The tokens of the further members of an object, and of its end. -/
def membersTokens : List (String × Tree) → List Token
  | [] => [.rightBrace]
  | (name, v) :: members =>
    .comma :: .string (spelling.units name) :: .colon :: (v.tokens ++ membersTokens members)

end

mutual

/-- The tree as it is read. -/
def expr : Tree → Expr
  | string s => .string (spelling.units s)
  | bool b => .bool b
  | integer i => .number (.ofInt i)
  | array items => .array (itemsExpr items)
  | object members => .object (membersExpr members)

/-- The items of a list as they are read. -/
def itemsExpr : List Tree → List Expr
  | [] => []
  | v :: items => v.expr :: itemsExpr items

/-- The members of an object as they are read. -/
def membersExpr : List (String × Tree) → List (List TextUnit × Expr)
  | [] => []
  | (name, v) :: members => (spelling.units name, v.expr) :: membersExpr members

end

end Tree

/-! ### Numbers -/

/-- A number may end in front of this: it does not go on with a digit, a point or a power of ten. -/
def EndsNumber (rest : List Char) : Prop :=
  ∀ c ∈ rest.head?, c.isDigit = false ∧ c ≠ '.' ∧ c ≠ 'e' ∧ c ≠ 'E'

namespace Number

/-- The digits of a number are read as its whole part. -/
theorem whole?_toDigits (n : ℕ) {rest : List Char} (hrest : EndsNumber rest) :
    whole? (Nat.toDigits 10 n ++ rest) = some (Nat.toDigits 10 n, rest) := by
  by_cases hn : n = 0
  · subst hn
    rfl
  · obtain ⟨htake, hdrop⟩ := Text.takeWhile_append_of_head?
      (fun c hc => Text.isDigit_of_mem_toDigits hc) fun c hc => (hrest c hc).1
    have hhead := Text.head?_toDigits hn
    obtain ⟨c, cs, hcons⟩ := List.exists_cons_of_ne_nil (Nat.toDigits_ne_nil (n := n) (b := 10))
    have hc : c.isDigit = true := Text.isDigit_of_mem_toDigits (hcons ▸ List.mem_cons_self)
    have hzero : c ≠ '0' := by
      rintro rfl
      rw [hcons] at hhead
      exact hhead rfl
    rw [whole?, digits?, htake, hdrop]
    · -- There is a first digit.
      rw [hcons, List.cons_append, List.head?_cons, Option.any_some, if_pos hc]
    · -- It is no zero, which would stand alone.
      intro ds hds
      rw [hcons, List.cons_append, List.cons.injEq] at hds
      exact hzero hds.1

/-- Neither a point nor a power of ten follows. -/
theorem fraction?_of_endsNumber {rest : List Char} (hrest : EndsNumber rest) :
    fraction? rest = some ([], rest) ∧ exponent? rest = some (none, rest) := by
  cases rest with
  | nil => exact ⟨rfl, rfl⟩
  | cons c cs =>
    obtain ⟨-, hpoint, hlower, hupper⟩ := hrest c rfl
    constructor
    · rw [fraction?]
      intro ds hds
      exact hpoint (List.cons.inj hds).1
    · rw [exponent?, if_neg (by simp [hlower, hupper])]

/-- An integer is read up to the end of its digits. -/
theorem read?_toString (i : ℤ) {rest : List Char} (hrest : EndsNumber rest) :
    read? ((toString i).toList ++ rest) = some (ofInt i, rest) := by
  have hwhole := whole?_toDigits i.natAbs hrest
  obtain ⟨hfraction, hexponent⟩ := fraction?_of_endsNumber hrest
  rw [Text.toList_toString_int]
  by_cases hi : i < 0
  · rw [if_pos hi, List.append_assoc, List.singleton_append, read?, ofInt, decide_eq_true hi]
    simp only [List.head?_cons, beq_self_eq_true, if_true, List.tail_cons, bind, Option.bind,
      hwhole, hfraction, hexponent]
    rfl
  · have hdigits : (Nat.toDigits 10 i.natAbs ++ rest).head? ≠ some '-' := by
      obtain ⟨c, cs, hcons⟩ :=
        List.exists_cons_of_ne_nil (Nat.toDigits_ne_nil (n := i.natAbs) (b := 10))
      have hc : c.isDigit = true := Text.isDigit_of_mem_toDigits (hcons ▸ List.mem_cons_self)
      rw [hcons, List.cons_append, List.head?_cons, Ne, Option.some.injEq]
      rintro rfl
      exact absurd hc (by decide)
    rw [if_neg hi, List.nil_append, read?, ofInt, decide_eq_false hi]
    simp only [beq_eq_false_iff_ne.2 hdigits, Bool.false_eq_true, if_false, bind, Option.bind,
      hwhole, hfraction, hexponent]
    rfl

/-- The digits of an integer of 64 bits, signed or not, stand for it. -/
theorem text?_ofInt {i : ℤ} (hlow : -2 ^ 63 ≤ i) (hhigh : i < 2 ^ 64) :
    (ofInt i).text? = some (toString i) := by
  have hinteger : (ofInt i).integer? = some i := by
    rw [integer?, ofInt]
    simp only [List.isEmpty_nil, Option.isNone_none, Bool.and_self, if_true, Text.valueIn_toDigits]
    by_cases hi : i < 0
    · have hrange : 0 < i.natAbs ∧ i.natAbs ≤ Nat.pow 2 63 := by
        rw [Nat.pow_eq]
        omega
      have hvalue : -(i.natAbs : ℤ) = i := by omega
      rw [if_pos (decide_eq_true hi), if_pos hrange, hvalue]
    · have hrange : i.natAbs < Nat.pow 2 64 := by
        rw [Nat.pow_eq]
        omega
      have hvalue : (i.natAbs : ℤ) = i := by omega
      rw [if_neg (by simpa using hi), if_pos hrange, hvalue]
  rw [text?, hinteger]

end Number

/-! ### Cutting the text -/

namespace Token

/-- The first token of a text is followed by those of what it leaves. -/
theorem ofChars?_cons {c : Char} {cs rest : List Char} {t : Token} {ts : List Token}
    (hblank : isBlank c = false) (hread : read? (c :: cs) = some (t, rest))
    (hrest : ofChars? rest = some ts) : ofChars? (c :: cs) = some (t :: ts) := by
  rw [ofChars?, hblank, if_neg Bool.false_ne_true]
  split
  · next hnone => simp [hread] at hnone
  · next u tail hu =>
    rw [hread, Option.some.injEq, Prod.mk.injEq] at hu
    rw [← hu.1, ← hu.2, hrest]
    rfl

/-- A string is cut off, whatever follows it. -/
theorem ofChars?_quoted (spelling : Spelling) (s : String) {rest : List Char} {ts : List Token}
    (h : ofChars? rest = some ts) :
    ofChars? (spelling.quoted s ++ rest) = some (string (spelling.units s) :: ts) := by
  rw [Spelling.quoted, List.cons_append, List.cons_append, List.append_assoc]
  refine ofChars?_cons rfl ?_ h
  rw [read?, List.singleton_append, TextUnit.read?_spelled]
  rfl

/-- An integer is cut off in front of what ends a number. -/
theorem ofChars?_integer (i : ℤ) {rest : List Char} {ts : List Token} (hends : EndsNumber rest)
    (h : ofChars? rest = some ts) :
    ofChars? ((toString i).toList ++ rest) = some (number (.ofInt i) :: ts) := by
  have hread := Number.read?_toString i hends
  obtain ⟨c, cs, hcons, hc⟩ := Text.exists_cons_toString i
  have hne {d : Char} (hd : d ≠ '-' ∧ d.isDigit = false) : c ≠ d := by
    rintro rfl
    rcases hc with hc | hc
    · exact hd.1 hc
    · exact Bool.false_ne_true (hd.2.symm.trans hc)
  rw [hcons, List.cons_append] at hread ⊢
  refine ofChars?_cons ?_ ?_ h
  · simp only [isBlank, Bool.or_eq_false_iff, beq_eq_false_iff_ne]
    exact ⟨⟨⟨hne (by decide), hne (by decide)⟩, hne (by decide)⟩, hne (by decide)⟩
  · rw [read?, hread]
    · rfl
    -- None of the other tokens starts like this.
    all_goals exact fun ds hds => hne (by decide) (List.cons.inj hds).1

end Token

namespace Tree

variable (spelling : Spelling)

theorem endsNumber_itemsChars (items : List Tree) (rest : List Char) :
    EndsNumber (itemsChars spelling items ++ rest) := by
  cases items with
  | nil => simp [EndsNumber, itemsChars]
  | cons v items => simp [EndsNumber, itemsChars]

theorem endsNumber_membersChars (members : List (String × Tree)) (rest : List Char) :
    EndsNumber (membersChars spelling members ++ rest) := by
  cases members with
  | nil => simp [EndsNumber, membersChars]
  | cons m members => simp [EndsNumber, membersChars]

mutual

/-- **The text of a tree is cut into its tokens** in front of what ends a number. -/
theorem ofChars?_chars (v : Tree) {rest : List Char} {ts : List Token} (hends : EndsNumber rest)
    (h : Token.ofChars? rest = some ts) :
    Token.ofChars? (v.chars spelling ++ rest) = some (v.tokens spelling ++ ts) := by
  match v with
  | string s => exact Token.ofChars?_quoted spelling s h
  | bool true => exact Token.ofChars?_cons (c := 't') rfl rfl h
  | bool false => exact Token.ofChars?_cons (c := 'f') rfl rfl h
  | integer i => exact Token.ofChars?_integer i hends h
  | array [] =>
    have hclose := Token.ofChars?_cons (c := ']') rfl rfl h
    exact Token.ofChars?_cons (c := '[') rfl rfl hclose
  | array (v :: items) =>
    have hitems := ofChars?_itemsChars items h
    have hv := ofChars?_chars v (endsNumber_itemsChars spelling items rest) hitems
    rw [chars, tokens, List.cons_append, List.cons_append, List.append_assoc, List.append_assoc]
    exact Token.ofChars?_cons rfl rfl hv
  | object [] =>
    have hclose := Token.ofChars?_cons (c := '}') rfl rfl h
    exact Token.ofChars?_cons (c := '{') rfl rfl hclose
  | object ((name, v) :: members) =>
    have hmembers := ofChars?_membersChars members h
    have hv := ofChars?_chars v (endsNumber_membersChars spelling members rest) hmembers
    have hcolon := Token.ofChars?_cons (c := ':') rfl rfl hv
    have hname := Token.ofChars?_quoted spelling name hcolon
    rw [chars, tokens, List.cons_append, List.append_assoc, List.cons_append, List.append_assoc,
      List.cons_append, List.cons_append, List.cons_append, List.append_assoc]
    exact Token.ofChars?_cons rfl rfl hname

theorem ofChars?_itemsChars (items : List Tree) {rest : List Char} {ts : List Token}
    (h : Token.ofChars? rest = some ts) :
    Token.ofChars? (itemsChars spelling items ++ rest)
      = some (itemsTokens spelling items ++ ts) := by
  match items with
  | [] => exact Token.ofChars?_cons (c := ']') rfl rfl h
  | v :: items =>
    have hitems := ofChars?_itemsChars items h
    have hv := ofChars?_chars v (endsNumber_itemsChars spelling items rest) hitems
    rw [itemsChars, itemsTokens, List.cons_append, List.cons_append, List.append_assoc,
      List.append_assoc]
    exact Token.ofChars?_cons rfl rfl hv

theorem ofChars?_membersChars (members : List (String × Tree)) {rest : List Char}
    {ts : List Token} (h : Token.ofChars? rest = some ts) :
    Token.ofChars? (membersChars spelling members ++ rest)
      = some (membersTokens spelling members ++ ts) := by
  match members with
  | [] => exact Token.ofChars?_cons (c := '}') rfl rfl h
  | (name, v) :: members =>
    have hmembers := ofChars?_membersChars members h
    have hv := ofChars?_chars v (endsNumber_membersChars spelling members rest) hmembers
    have hcolon := Token.ofChars?_cons (c := ':') rfl rfl hv
    have hname := Token.ofChars?_quoted spelling name hcolon
    rw [membersChars, membersTokens, List.cons_append, List.append_assoc, List.cons_append,
      List.append_assoc, List.cons_append, List.cons_append, List.cons_append, List.append_assoc]
    exact Token.ofChars?_cons rfl rfl hname

end

/-! ### Reading the tokens -/

/-- A tree has a token, and does not start with the end of a list. -/
theorem exists_cons_tokens (v : Tree) :
    ∃ t ts, v.tokens spelling = t :: ts ∧ t ≠ .rightBracket := by
  match v with
  | string s => exact ⟨_, _, rfl, by simp⟩
  | bool b => exact ⟨_, _, rfl, by simp⟩
  | integer i => exact ⟨_, _, rfl, by simp⟩
  | array [] => exact ⟨_, _, rfl, by simp⟩
  | array (v :: items) => exact ⟨_, _, rfl, by simp⟩
  | object [] => exact ⟨_, _, rfl, by simp⟩
  | object ((name, v) :: members) => exact ⟨_, _, rfl, by simp⟩

/-- A non-empty list is read as its items are. -/
theorem value?_leftBracket {fuel : ℕ} {ts rest : List Token} {items : List Expr}
    (hts : ∀ ts', ts ≠ .rightBracket :: ts') (h : items? fuel ts = some (items, rest)) :
    value? (fuel + 1) (.leftBracket :: ts) = some (.array items, rest) := by
  rw [value?, h]
  · rfl
  · exact hts

/-- A non-empty object is read as its members are. -/
theorem value?_leftBrace {fuel : ℕ} {ts rest : List Token} {members : List (List TextUnit × Expr)}
    (hts : ∀ ts', ts ≠ .rightBrace :: ts') (h : members? fuel ts = some (members, rest)) :
    value? (fuel + 1) (.leftBrace :: ts) = some (.object members, rest) := by
  rw [value?, h]
  · rfl
  · exact hts

/-- The tokens of a tree are read as the tree, if the fuel is not below their number. -/
def Reads (v : Tree) : Prop :=
  ∀ fuel ts, (v.tokens spelling).length ≤ fuel →
    value? fuel (v.tokens spelling ++ ts) = some (v.expr spelling, ts)

variable {spelling}

/-- The items of a list are read if each of them is. -/
theorem items?_tokens {v : Tree} {items : List Tree} (h : ∀ w ∈ v :: items, w.Reads spelling)
    (fuel : ℕ) (ts : List Token)
    (hfuel : (v.tokens spelling).length + (itemsTokens spelling items).length ≤ fuel) :
    items? fuel (v.tokens spelling ++ (itemsTokens spelling items ++ ts))
      = some (itemsExpr spelling (v :: items), ts) := by
  have hv := h v List.mem_cons_self
  -- Each item takes a token for the comma or the bracket behind it, which pays for the step.
  induction items generalizing v fuel with
  | nil =>
    rw [itemsTokens, List.length_singleton] at hfuel
    obtain ⟨fuel, rfl⟩ : ∃ f, fuel = f + 1 := Nat.exists_eq_succ_of_ne_zero (by omega)
    rw [items?, hv fuel _ (by omega)]
    rfl
  | cons w items ih =>
    rw [itemsTokens, List.length_cons, List.length_append] at hfuel
    obtain ⟨fuel, rfl⟩ : ∃ f, fuel = f + 1 := Nat.exists_eq_succ_of_ne_zero (by omega)
    have hrest : ∀ u ∈ w :: items, u.Reads spelling := fun u hu => h u (List.mem_cons_of_mem _ hu)
    have hitems := ih hrest fuel (by omega) (hrest w List.mem_cons_self)
    rw [items?, hv fuel _ (by omega), itemsTokens, List.cons_append, List.append_assoc]
    simp only [bind, Option.bind, hitems]
    rfl

/-- The members of an object are read if each of their values is. -/
theorem members?_tokens {name : String} {v : Tree} {members : List (String × Tree)}
    (h : ∀ m ∈ (name, v) :: members, m.2.Reads spelling) (fuel : ℕ) (ts : List Token)
    (hfuel : (v.tokens spelling).length + (membersTokens spelling members).length ≤ fuel) :
    members? fuel (.string (spelling.units name) :: .colon ::
        (v.tokens spelling ++ (membersTokens spelling members ++ ts)))
      = some (membersExpr spelling ((name, v) :: members), ts) := by
  have hv : v.Reads spelling := h (name, v) List.mem_cons_self
  induction members generalizing name v fuel with
  | nil =>
    rw [membersTokens, List.length_singleton] at hfuel
    obtain ⟨fuel, rfl⟩ : ∃ f, fuel = f + 1 := Nat.exists_eq_succ_of_ne_zero (by omega)
    rw [members?, hv fuel _ (by omega)]
    rfl
  | cons m members ih =>
    obtain ⟨other, w⟩ := m
    simp only [membersTokens, List.length_cons, List.length_append] at hfuel
    obtain ⟨fuel, rfl⟩ : ∃ f, fuel = f + 1 := Nat.exists_eq_succ_of_ne_zero (by omega)
    have hrest : ∀ u ∈ (other, w) :: members, u.2.Reads spelling :=
      fun u hu => h u (List.mem_cons_of_mem _ hu)
    have hmembers := ih hrest fuel (by omega) (hrest _ List.mem_cons_self)
    rw [members?, hv fuel _ (by omega), membersTokens, List.cons_append, List.cons_append,
      List.cons_append, List.append_assoc]
    simp only [bind, Option.bind, hmembers]
    rfl

theorem reads_array {items : List Tree} (h : ∀ w ∈ items, w.Reads spelling) :
    (array items).Reads spelling := by
  intro fuel ts hfuel
  cases items with
  | nil =>
    simp only [tokens, List.length_cons] at hfuel
    obtain ⟨fuel, rfl⟩ : ∃ f, fuel = f + 1 := Nat.exists_eq_succ_of_ne_zero (by omega)
    rfl
  | cons v items =>
    rw [tokens, List.length_cons, List.length_append] at hfuel
    obtain ⟨fuel, rfl⟩ : ∃ f, fuel = f + 1 := Nat.exists_eq_succ_of_ne_zero (by omega)
    have hitems := items?_tokens h fuel ts (by omega)
    rw [tokens, expr, List.cons_append, List.append_assoc]
    refine value?_leftBracket ?_ hitems
    -- The list is not empty, so its end does not come first.
    intro ts' hts
    obtain ⟨u, us, hv, hu⟩ := v.exists_cons_tokens spelling
    rw [hv, List.cons_append, List.cons.injEq] at hts
    exact hu hts.1

theorem reads_object {members : List (String × Tree)} (h : ∀ m ∈ members, m.2.Reads spelling) :
    (object members).Reads spelling := by
  intro fuel ts hfuel
  cases members with
  | nil =>
    simp only [tokens, List.length_cons] at hfuel
    obtain ⟨fuel, rfl⟩ : ∃ f, fuel = f + 1 := Nat.exists_eq_succ_of_ne_zero (by omega)
    rfl
  | cons m members =>
    obtain ⟨name, v⟩ := m
    simp only [tokens, List.length_cons, List.length_append] at hfuel
    obtain ⟨fuel, rfl⟩ : ∃ f, fuel = f + 1 := Nat.exists_eq_succ_of_ne_zero (by omega)
    have hmembers := members?_tokens h fuel ts (by omega)
    rw [tokens, expr, List.cons_append, List.cons_append, List.cons_append, List.append_assoc]
    exact value?_leftBrace (by simp) hmembers

/-- A tree that is a single token is read as it is. -/
theorem reads_of_token {v : Tree} {t : Token} (htokens : v.tokens spelling = [t])
    (h : ∀ fuel ts, value? (fuel + 1) (t :: ts) = some (v.expr spelling, ts)) :
    v.Reads spelling := by
  intro fuel ts hfuel
  rw [htokens, List.length_singleton] at hfuel
  obtain ⟨fuel, rfl⟩ : ∃ f, fuel = f + 1 := Nat.exists_eq_succ_of_ne_zero (by omega)
  rw [htokens, List.singleton_append, h]

mutual

/-- **The tokens of a tree are read as the tree.** -/
theorem reads : (v : Tree) → v.Reads spelling
  | string _ => reads_of_token rfl fun _ _ => rfl
  | bool _ => reads_of_token rfl fun _ _ => rfl
  | integer _ => reads_of_token rfl fun _ _ => rfl
  | array items => reads_array (reads_of_mem_items items)
  | object members => reads_object (reads_of_mem_members members)

theorem reads_of_mem_items : (items : List Tree) → ∀ w ∈ items, w.Reads spelling
  | [] => fun _ hw => absurd hw List.not_mem_nil
  | v :: items => List.forall_mem_cons.2 ⟨reads v, reads_of_mem_items items⟩

theorem reads_of_mem_members :
    (members : List (String × Tree)) → ∀ m ∈ members, m.2.Reads spelling
  | [] => fun _ hm => absurd hm List.not_mem_nil
  | (_, v) :: members => List.forall_mem_cons.2 ⟨reads v, reads_of_mem_members members⟩

end

/-! ### The text as a whole -/

variable (spelling)

/-- The text of a tree. -/
def text (v : Tree) : String :=
  String.ofList (v.chars spelling)

/-- **What is written is read.** The text of a tree is read as the tree, for any spelling. -/
theorem parse?_text (v : Tree) : Expr.parse? (v.text spelling) = some (v.expr spelling) := by
  have hnil : Token.ofChars? [] = some [] := by rw [Token.ofChars?]
  have hends : EndsNumber [] := by simp [EndsNumber]
  have htokens := v.ofChars?_chars spelling hends hnil
  have hreads : v.Reads spelling := v.reads
  have hvalue := hreads (2 * (v.tokens spelling).length) [] (by omega)
  rw [List.append_nil, List.append_nil] at htokens
  rw [List.append_nil] at hvalue
  rw [Expr.parse?, text, String.toList_ofList, htokens]
  simp only [bind, Option.bind, hvalue]
  rfl

end Tree

end RegisterTables.Json
