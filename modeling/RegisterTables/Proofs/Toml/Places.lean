import RegisterTables.Proofs.Toml.Entries
import RegisterTables.Proofs.Toml.Readings

/-!
# Where values are written

A key tells its place among the tokens. Behind it stands an equals sign, and behind that its value;
this holds of every entry that is read, whether it stands on a line of its own or between braces,
and so of every entry of the table of the text (`Table.allEntries_of_parse`).

A value without parts is a number or a truth value exactly if a literal is written in its place, and
then it is that literal (`IsShownAt.isLiteralAt_iff`): the first token tells that it is no string,
and the tokens of a number end where its characters do.
-/

namespace RegisterTables.Toml

/-! ### Keys -/

/-- Whether the token is a run of spaces and tabs. -/
def Lexeme.isBlank (t : Lexeme) : Bool :=
  t.token = .blank

/-- Each token tells how many there are before it. -/
def ArePlaced (all : List Lexeme) : Prop :=
  ∀ before t after, all = before ++ t :: after → t.place = before.length

theorem arePlaced_lexemes (text : String) : ArePlaced (lexemes text) := by
  have hplaced (n : ℕ) (ts : List Token) (before : List Lexeme) (t : Lexeme)
      (after : List Lexeme) (h : placed n ts = before ++ t :: after) :
      t.place = n + before.length := by
    induction before generalizing n ts with
    | nil =>
      cases ts with
      | nil => cases h
      | cons u ts => exact (List.cons.inj h).1 ▸ rfl
    | cons b before ih =>
      cases ts with
      | nil => cases h
      | cons u ts =>
        have hplace := ih (n + 1) ts (List.cons.inj h).2
        rw [List.length_cons]
        omega
  intro before t after h
  have hplace := hplaced 0 (Token.ofText text) before t after h
  omega

/-- The key is the token in its place. -/
def IsKeyAt (all : List Lexeme) (key : Key) : Prop :=
  ∃ t, all[key.place]? = some t ∧
    (t.token = .word key.name.toList ∨ t.token = .string key.name.toList false)

/-- The key is the token in its place, and these tokens follow it and any blanks. -/
def IsKeyBefore (all : List Lexeme) (key : Key) (ts : List Lexeme) : Prop :=
  IsKeyAt all key ∧ ts = (all.drop (key.place + 1)).dropWhile Lexeme.isBlank

variable {all : List Lexeme}

/-- Where a token stands, and what follows it. -/
theorem ArePlaced.getElem?_drop (hall : ArePlaced all) {t : Lexeme} {ts : List Lexeme}
    (hts : t :: ts <:+ all) : all[t.place]? = some t ∧ all.drop (t.place + 1) = ts := by
  obtain ⟨before, hbefore⟩ := hts
  have hplace := hall before t ts hbefore.symm
  rw [hplace, ← hbefore]
  constructor
  · rw [List.getElem?_append_right (Nat.le_refl _), Nat.sub_self]
    rfl
  · rw [List.drop_append, List.drop_eq_nil_of_le (Nat.le_succ _), Nat.add_sub_cancel_left]
    rfl

/-- A key of one or more parts ends in one that is in its place. -/
theorem keyPath_eq_ok (hall : ArePlaced all) {ts rest : List Lexeme} {path : List Key}
    (hts : ts <:+ all) (h : keyPath ts = .ok (path, rest)) :
    rest <:+ all ∧ ∃ init key, path = init ++ [key] ∧ IsKeyBefore all key rest := by
  -- Behind a part only blanks are passed over, until a period or the end of the key is found.
  suffices hboth : (∀ {path rest}, ts <:+ all → keyPath ts = .ok (path, rest) →
      rest <:+ all ∧ ∃ init key, path = init ++ [key] ∧ IsKeyBefore all key rest) ∧
    ∀ {part path rest}, ts <:+ all → IsKeyBefore all part (ts.dropWhile Lexeme.isBlank) →
      keyPathAfter part ts = .ok (path, rest) →
      rest <:+ all ∧ ∃ init key, path = init ++ [key] ∧ IsKeyBefore all key rest from
    hboth.1 hts h
  clear hts h
  induction ts with
  | nil =>
    constructor
    · intro path rest hts h
      simp [keyPath] at h
    · intro part path rest hts hpart h
      simp only [keyPathAfter] at h
      obtain ⟨rfl, rfl⟩ := Prod.mk.inj (Except.ok.inj h)
      exact ⟨hts, [], part, rfl, hpart⟩
  | cons t ts ih =>
    have htail {t : Lexeme} (hts : t :: ts <:+ all) : ts <:+ all :=
      (List.suffix_cons t ts).trans hts
    have hpart {t : Lexeme} {name : List Char} (hts : t :: ts <:+ all)
        (ht : t.token = .word name ∨ t.token = .string name false) :
        IsKeyBefore all ⟨String.ofList name, t.place⟩ (ts.dropWhile Lexeme.isBlank) := by
      obtain ⟨hget, hdrop⟩ := hall.getElem?_drop hts
      refine ⟨⟨t, hget, ?_⟩, by rw [hdrop]⟩
      rwa [String.toList_ofList]
    constructor
    · intro path rest hts h
      unfold keyPath at h
      split at h
      · next heq =>
        obtain ⟨rfl, rfl⟩ := List.cons.inj heq
        exact ih.1 (htail hts) h
      · next heq =>
        obtain ⟨rfl, rfl⟩ := List.cons.inj heq
        exact ih.2 (htail hts) (hpart hts (.inl rfl)) h
      · next heq =>
        obtain ⟨rfl, rfl⟩ := List.cons.inj heq
        exact ih.2 (htail hts) (hpart hts (.inr rfl)) h
      · cases h
      · cases h
    · intro part path rest hts hkey h
      unfold keyPathAfter at h
      split at h
      · next heq =>
        obtain ⟨rfl, rfl⟩ := List.cons.inj heq
        rw [List.dropWhile_cons_of_pos rfl] at hkey
        exact ih.2 (htail hts) hkey h
      · next heq =>
        obtain ⟨rfl, rfl⟩ := List.cons.inj heq
        obtain ⟨⟨path', rest'⟩, hpath, h⟩ := bind_eq_ok.1 h
        obtain ⟨rfl, rfl⟩ := Prod.mk.inj (Except.ok.inj h)
        obtain ⟨hrest, init, key, rfl, hlast⟩ := ih.1 (htail hts) hpath
        exact ⟨hrest, part :: init, key, rfl, hlast⟩
      · cases h
      · next hblank _ _ =>
        obtain ⟨rfl, rfl⟩ := Prod.mk.inj (Except.ok.inj h)
        have ht : t.isBlank = false := by
          obtain ⟨token, n⟩ := t
          refine decide_eq_false ?_
          rintro rfl
          exact hblank n ts rfl
        rw [List.dropWhile_cons_of_neg (by simp [ht])] at hkey
        exact ⟨hts, [], part, rfl, hkey⟩

/-! ### Entries -/

/-- The value is written behind the key, an equals sign and blanks, and does not go on as a number.
-/
def IsShownAt (all : List Lexeme) (key : Key) (v : Value) : Prop :=
  ∃ fuel e n ts rest, IsKeyBefore all key (⟨.equals, n⟩ :: ts) ∧
    value fuel (skipBlank ts) = .ok (e, rest) ∧ e.value = .ok v ∧ EndsLiteral rest

/-- An entry that is read goes to the others. -/
theorem Body.AllEntries.insert_read {fuel : ℕ} {path : List Key} {item : Expr} {body body' : Body}
    {ts ts' rest : List Lexeme} (hbody : body.AllEntries (IsShownAt all))
    (hpath : ∃ init key, path = init ++ [key] ∧ IsKeyBefore all key ts)
    (hequals : expect .equals ts = .ok ts') (hitem : value fuel (skipBlank ts') = .ok (item, rest))
    (hparts : item.AllEntries (IsShownAt all)) (hends : EndsLiteral rest)
    (hinsert : body.insert item path = .ok body') : body'.AllEntries (IsShownAt all) := by
  obtain ⟨init, key, rfl, hkey⟩ := hpath
  obtain ⟨n, rfl⟩ := exists_of_expect hequals
  refine hbody.insert ?_ hparts init hinsert
  intro v hv _
  exact ⟨fuel, item, n, ts', rest, hkey, hitem, hv, hends⟩

/-- All entries that are read for a value are shown where their keys say. -/
theorem allEntries_of_value (hall : ArePlaced all) (fuel : ℕ) :
    (∀ {ts e rest}, ts <:+ all → value fuel ts = .ok (e, rest) →
      rest <:+ all ∧ e.AllEntries (IsShownAt all)) ∧
    (∀ {ts items rest}, ts <:+ all → arrayItems fuel ts = .ok (items, rest) →
      rest <:+ all ∧ ∀ e ∈ items, e.AllEntries (IsShownAt all)) ∧
    ∀ {body ts body' rest}, ts <:+ all → body.AllEntries (IsShownAt all) →
      inlineEntries fuel body ts = .ok (body', rest) →
      rest <:+ all ∧ body'.AllEntries (IsShownAt all) := by
  -- Values, items and entries are read with one fuel, so their statements go together.
  induction fuel with
  | zero =>
    refine ⟨?_, ?_, ?_⟩
    · intro ts e rest hts h
      cases ts <;> simp [value] at h
    · intro ts items rest hts h
      simp [arrayItems] at h
    · intro body ts body' rest hts hbody h
      simp [inlineEntries] at h
  | succ fuel ih =>
    obtain ⟨ihValue, ihItems, ihEntries⟩ := ih
    refine ⟨?_, ?_, ?_⟩
    · intro ts e rest hts h
      cases ts with
      | nil => simp [value] at h
      | cons t ts =>
        have htail : ts <:+ all := (List.suffix_cons t ts).trans hts
        have hskip : skipBlank ts <:+ all := (suffix_skipBlank ts).trans htail
        rcases value_cases h with ⟨text, multiline, -, rfl, rfl⟩ |
          ⟨-, text, ⟨used, hused, -, -⟩, htext⟩ | ⟨items, -, rfl, hitems⟩ | ⟨body, -, rfl, hbody⟩
        · exact ⟨htail, .string _⟩
        · refine ⟨(hused ▸ List.suffix_append used rest).trans hts, ?_⟩
          rcases htext with rfl | ⟨b, rfl, -⟩
          · exact .number _
          · exact .bool b
        · obtain ⟨hrest, hparts⟩ := ihItems htail hitems
          exact ⟨hrest, .array hparts⟩
        · rcases hbody with ⟨rfl, n, hbrace⟩ | hbody
          · rw [hbrace] at hskip
            exact ⟨(List.suffix_cons _ _).trans hskip,
              .inline (List.forall_mem_nil _) (List.forall_mem_nil _)⟩
          · obtain ⟨hrest, hparts⟩ := ihEntries hskip (List.forall_mem_nil _) hbody
            exact ⟨hrest, .inline (fun p hp => (hparts p hp).1) fun p hp => (hparts p hp).2⟩
    · intro ts items rest hts h
      obtain ⟨ts₁, hskip, hcases⟩ := arrayItems_cases h
      have hts₁ : ts₁ <:+ all := (suffix_skipLines hskip).trans hts
      rcases hcases with ⟨rfl, n, rfl⟩ |
        ⟨item, items', ts₂, ts₃, rfl, hitem, hskip', hcases⟩
      · exact ⟨(List.suffix_cons _ _).trans hts₁, List.forall_mem_nil _⟩
      · obtain ⟨hts₂, hparts⟩ := ihValue hts₁ hitem
        have hts₃ : ts₃ <:+ all := (suffix_skipLines hskip').trans hts₂
        rcases hcases with ⟨n, ts₄, rfl, hitems⟩ | ⟨rfl, hexpect⟩
        · obtain ⟨hrest, hparts'⟩ := ihItems ((List.suffix_cons _ _).trans hts₃) hitems
          exact ⟨hrest, List.forall_mem_cons.2 ⟨hparts, hparts'⟩⟩
        · exact ⟨(suffix_of_expect hexpect).trans hts₃, List.forall_mem_singleton.2 hparts⟩
    · intro body ts body' rest hts hbody h
      obtain ⟨path, ts₁, ts₂, item, ts₃, body₁, hpath, hequals, hitem, hinsert, hcases⟩ :=
        inlineEntries_cases h
      obtain ⟨hts₁, hkey⟩ := keyPath_eq_ok hall hts hpath
      have hts₂ : ts₂ <:+ all := (suffix_of_expect hequals).trans hts₁
      obtain ⟨hts₃, hparts⟩ := ihValue ((suffix_skipBlank ts₂).trans hts₂) hitem
      have hskip : skipBlank ts₃ <:+ all := (suffix_skipBlank ts₃).trans hts₃
      -- Only a comma or a brace stands behind the value, and a number goes on with neither.
      have hbody₁ (hends : EndsLiteral (skipBlank ts₃)) : body₁.AllEntries (IsShownAt all) :=
        hbody.insert_read hkey hequals hitem hparts (endsLiteral_of_skipBlank hends) hinsert
      rcases hcases with ⟨rfl, n, hbrace⟩ | ⟨ts₄, hcomma, hentries⟩
      · refine ⟨?_, hbody₁ (hbrace ▸ endsLiteral_cons rest rfl)⟩
        rw [hbrace] at hskip
        exact (List.suffix_cons _ _).trans hskip
      · obtain ⟨n, hts₄⟩ := exists_of_expect hcomma
        refine ihEntries ((suffix_of_expect hcomma).trans hskip) ?_ hentries
        exact hbody₁ (hts₄ ▸ endsLiteral_cons ts₄ rfl)

/-- An entry on a line of its own is shown where its key says. -/
theorem allEntries_of_entry (hall : ArePlaced all) {body body' : Body} {ts rest : List Lexeme}
    (hts : ts <:+ all) (hbody : body.AllEntries (IsShownAt all))
    (h : entry body ts = .ok (body', rest)) :
    rest <:+ all ∧ body'.AllEntries (IsShownAt all) := by
  obtain ⟨⟨path, ts₁⟩, hpath, h⟩ := bind_eq_ok.1 h
  obtain ⟨ts₂, hequals, h⟩ := bind_eq_ok.1 h
  obtain ⟨⟨item, ts₃⟩, hitem, h⟩ := bind_eq_ok.1 h
  obtain ⟨ts₄, hline, h⟩ := bind_eq_ok.1 h
  obtain ⟨body₁, hinsert, h⟩ := bind_eq_ok.1 h
  obtain ⟨rfl, rfl⟩ := Prod.mk.inj (Except.ok.inj h)
  obtain ⟨hts₁, hkey⟩ := keyPath_eq_ok hall hts hpath
  have hts₂ : ts₂ <:+ all := (suffix_of_expect hequals).trans hts₁
  obtain ⟨hts₃, hparts⟩ :=
    (allEntries_of_value hall _).1 ((suffix_skipBlank ts₂).trans hts₂) hitem
  obtain ⟨hsuffix, hends⟩ := endsLiteral_of_blankLineEnd hline
  exact ⟨hsuffix.trans hts₃, hbody.insert_read hkey hequals hitem hparts hends hinsert⟩

/-- A header starts without entries. -/
theorem header_eq_ok (hall : ArePlaced all) {b : Block} {ts rest : List Lexeme} (hts : ts <:+ all)
    (h : header ts = .ok (b, rest)) : rest <:+ all ∧ b.body = [] := by
  unfold header at h
  split at h
  · obtain ⟨⟨path, ts₁⟩, hpath, h⟩ := bind_eq_ok.1 h
    obtain ⟨ts₂, hfirst, h⟩ := bind_eq_ok.1 h
    obtain ⟨ts₃, hsecond, h⟩ := bind_eq_ok.1 h
    obtain ⟨ts₄, hline, h⟩ := bind_eq_ok.1 h
    obtain ⟨rfl, rfl⟩ := Prod.mk.inj (Except.ok.inj h)
    have hts₁ := (keyPath_eq_ok hall ((List.suffix_cons _ _).trans hts) hpath).1
    have hts₃ := (suffix_of_expect hsecond).trans ((suffix_of_expect hfirst).trans hts₁)
    exact ⟨(endsLiteral_of_blankLineEnd hline).1.trans hts₃, rfl⟩
  · obtain ⟨⟨path, ts₁⟩, hpath, h⟩ := bind_eq_ok.1 h
    obtain ⟨ts₂, hbracket, h⟩ := bind_eq_ok.1 h
    obtain ⟨ts₃, hline, h⟩ := bind_eq_ok.1 h
    obtain ⟨rfl, rfl⟩ := Prod.mk.inj (Except.ok.inj h)
    have hts₁ := (keyPath_eq_ok hall hts hpath).1
    have hts₂ := (suffix_of_expect hbracket).trans hts₁
    exact ⟨(endsLiteral_of_blankLineEnd hline).1.trans hts₂, rfl⟩

/-- All entries that are read, line by line, are shown where their keys say. -/
theorem allEntries_of_lines (hall : ArePlaced all) (fuel : ℕ) {block : Block} {blocks : List Block}
    {ts : List Lexeme} (hts : ts <:+ all) (hblock : block.body.AllEntries (IsShownAt all))
    (h : lines fuel block ts = .ok blocks) : Block.AllEntries (IsShownAt all) blocks := by
  induction fuel generalizing block blocks ts with
  | zero =>
    obtain rfl := Except.ok.inj h
    exact List.forall_mem_singleton.2 hblock
  | succ fuel ih =>
    rw [lines] at h
    obtain ⟨ts₁, hskip, h⟩ := bind_eq_ok.1 h
    have hts₁ : ts₁ <:+ all := (suffix_skipLines hskip).trans hts
    split at h
    · obtain rfl := Except.ok.inj h
      exact List.forall_mem_singleton.2 hblock
    · obtain ⟨⟨next, ts₂⟩, hheader, h⟩ := bind_eq_ok.1 h
      obtain ⟨blocks', hblocks, h⟩ := bind_eq_ok.1 h
      obtain rfl := Except.ok.inj h
      obtain ⟨hts₂, hnext⟩ := header_eq_ok hall ((List.suffix_cons _ _).trans hts₁) hheader
      refine List.forall_mem_cons.2 ⟨hblock, ih hts₂ ?_ hblocks⟩
      rw [hnext]
      exact List.forall_mem_nil _
    · obtain ⟨⟨body, ts₂⟩, hentry, h⟩ := bind_eq_ok.1 h
      obtain ⟨hts₂, hbody⟩ := allEntries_of_entry hall hts₁ hblock hentry
      exact ih hts₂ hbody h

/-- **All entries of the table of a text** whose values have no parts are shown where their keys
say, however deep in the table they are. -/
theorem Table.allEntries_of_parse {text : String} {t : Table} (h : Table.parse text = .ok t) :
    t.AllEntries (IsShownAt (lexemes text)) := by
  obtain ⟨d, hd, htable⟩ := bind_eq_ok.1 h
  obtain ⟨blocks, hlines, hd⟩ := bind_eq_ok.1 hd
  have hempty : Body.AllEntries (IsShownAt (lexemes text)) [] := List.forall_mem_nil _
  have hblocks : Block.AllEntries (IsShownAt (lexemes text)) blocks :=
    allEntries_of_lines (arePlaced_lexemes text) _ List.suffix_rfl hempty hlines
  cases blocks with
  | nil =>
    obtain rfl := Except.ok.inj hd
    exact Table.allEntries_ofDocument (d := ⟨[], []⟩) hempty hblocks htable
  | cons root blocks =>
    obtain rfl := Except.ok.inj hd
    obtain ⟨hroot, hrest⟩ := List.forall_mem_cons.1 hblocks
    exact Table.allEntries_ofDocument (d := ⟨root.body, blocks⟩) hroot hrest htable

/-! ### Literals -/

theorem map_token_placed (n : ℕ) (ts : List Token) : (placed n ts).map Lexeme.token = ts := by
  induction ts generalizing n with
  | nil => rfl
  | cons t ts ih => rw [placed_cons, List.map_cons, ih]

/-- Dropping blanks from tokens with their places drops them from the tokens. -/
theorem map_token_dropWhile (ts : List Lexeme) :
    (ts.dropWhile Lexeme.isBlank).map Lexeme.token
      = (ts.map Lexeme.token).dropWhile (· = .blank) := by
  rw [List.dropWhile_map]
  rfl

/-- The tokens behind a key and its equals sign are cut from the characters there. -/
theorem IsKeyBefore.exists_valueChars? {text : String} {key : Key} {n : ℕ} {ts : List Lexeme}
    (h : IsKeyBefore (lexemes text) key (⟨.equals, n⟩ :: ts)) :
    ∃ cs, valueChars? text key.place = some cs ∧
      (ts.dropWhile Lexeme.isBlank).map Lexeme.token = Token.ofChars cs := by
  have htokens : .equals :: ts.map Lexeme.token = Token.ofChars
      ((Token.after (key.place + 1) (textChars text)).dropWhile Quote.isIndent) := by
    rw [← Token.dropWhile_ofChars, ← Token.drop_ofChars]
    have hmap := congrArg (List.map Lexeme.token) h.2
    rwa [List.map_cons, map_token_dropWhile, List.map_drop, lexemes_eq_placed, map_token_placed]
      at hmap
  obtain ⟨cs, hcs, hts⟩ := Token.exists_of_ofChars_equals htokens.symm
  refine ⟨cs.dropWhile Quote.isIndent, ?_, ?_⟩
  · rw [valueChars?, hcs]
    rfl
  · rw [map_token_dropWhile, ← hts, Token.dropWhile_ofChars]

/-- A value starts with a token that is no blank. -/
theorem exists_cons_of_value {fuel : ℕ} {ts rest : List Lexeme} {e : Expr}
    (h : value fuel ts = .ok (e, rest)) :
    ∃ fuel' t ts', fuel = fuel' + 1 ∧ ts = t :: ts' ∧ t.isBlank = false := by
  cases fuel with
  | zero => cases ts <;> simp [value] at h
  | succ fuel =>
    cases ts with
    | nil => simp [value] at h
    | cons t ts =>
      refine ⟨fuel, t, ts, rfl, rfl, decide_eq_false ?_⟩
      intro hblank
      rcases value_cases h with ⟨text, multiline, ht, -⟩ | ⟨ht, -⟩ | ⟨items, ht, -⟩ |
        ⟨body, ht, -⟩
      all_goals
        rw [hblank] at ht
        cases ht

/-- In front of a value there is at most one blank. -/
theorem skipBlank_of_value {fuel : ℕ} {ts rest : List Lexeme} {e : Expr}
    (h : value fuel (skipBlank ts) = .ok (e, rest)) :
    skipBlank ts = ts.dropWhile Lexeme.isBlank := by
  obtain ⟨fuel', t, ts', -, hcons, ht⟩ := exists_cons_of_value h
  have hstop : (t :: ts').dropWhile Lexeme.isBlank = t :: ts' :=
    List.dropWhile_cons_of_neg (by simp [ht])
  unfold skipBlank at hcons ⊢
  split at hcons
  · rw [List.dropWhile_cons_of_pos rfl, hcons, hstop]
  · rw [hcons, hstop]

/-- Where no token goes on with a number, no character does. -/
theorem EndsLiteral.isLiteralChar_head? {ts : List Lexeme} {cs : List Char} (h : EndsLiteral ts)
    (hts : ts.map Lexeme.token = Token.ofChars cs) :
    ∀ c ∈ cs.head?, Token.isLiteralChar c = false := by
  refine Token.isLiteralChar_head?_of_ofChars ?_
  rw [← hts]
  cases ts with
  | nil => exact nofun
  | cons t ts =>
    intro u hu
    obtain rfl := Option.some.inj hu
    exact h t rfl

/-- Tokens of a number are the longest run of characters of a number, if none follows them. -/
theorem takeWhile_of_literal {used rest : List Lexeme} {cs : List Char}
    (hused : ∀ t ∈ used, t.token.isLiteral = true) (hends : EndsLiteral rest)
    (hcs : (used ++ rest).map Lexeme.token = Token.ofChars cs) :
    cs.takeWhile Token.isLiteralChar = used.flatMap (·.token.literalChars) ∧
      (used ≠ [] → used.flatMap (·.token.literalChars) ≠ []) := by
  have htokens : ∀ t ∈ used.map Lexeme.token, t.isLiteral = true := by
    intro t ht
    obtain ⟨u, hu, rfl⟩ := List.mem_map.1 ht
    exact hused u hu
  rw [List.map_append] at hcs
  obtain ⟨after, rfl, hafter, hchars, hne⟩ := Token.ofChars_eq_append hcs.symm htokens
  rw [(Text.takeWhile_append_of_head? hchars (hends.isLiteralChar_head? hafter.symm)).1]
  rw [List.flatMap_map] at hne ⊢
  exact ⟨rfl, fun h => hne (mt List.map_eq_nil_iff.1 h)⟩

/-- **A literal is the number or truth value that it shows.** If characters of a number are written
where the value of a key is shown, the value is nothing else than all of them. -/
theorem IsShownAt.isLiteralAt_iff {text : String} {key : Key} {v : Value}
    (h : IsShownAt (lexemes text) key v) {literal : List Char} :
    IsLiteralAt text key.place literal ↔
      v = .number (String.ofList literal) ∨ ∃ b, v = .bool b ∧ literal = (toString b).toList := by
  obtain ⟨fuel, e, n, ts, rest, hkey, hvalue, hv, hends⟩ := h
  obtain ⟨cs, hcs, htokens⟩ := hkey.exists_valueChars?
  rw [skipBlank_of_value hvalue] at hvalue
  obtain ⟨fuel, t, us, rfl, hus, -⟩ := exists_cons_of_value hvalue
  rw [hus] at hvalue htokens
  have hliteralAt : IsLiteralAt text key.place literal ↔
      literal ≠ [] ∧ literal = cs.takeWhile Token.isLiteralChar := by
    rw [Toml.isLiteralAt_iff, hcs]
    simp
  -- Without a token of a number at the start there is no literal.
  have hnone (ht : t.token.isLiteral = false) : ¬IsLiteralAt text key.place literal := by
    have hrun := (takeWhile_of_literal (List.forall_mem_nil _) (endsLiteral_cons us ht) htokens).1
    rw [hliteralAt]
    rintro ⟨hne, hliteral⟩
    exact hne (hliteral.trans hrun)
  rcases value_cases hvalue with ⟨s, multiline, ht, rfl, -⟩ |
    ⟨ht, literal', ⟨used, hused, hliterals, rfl⟩, hwritten⟩ | ⟨items, ht, rfl, -⟩ |
    ⟨body, ht, rfl, -⟩
  · rw [Expr.value] at hv
    obtain rfl := Except.ok.inj hv
    exact iff_of_false (hnone (by rw [ht]; rfl)) (by simp)
  · -- The tokens of the number have at least one, since the first of the value is such a token.
    have hne : used ≠ [] := by
      rintro rfl
      rw [List.nil_append] at hused
      exact Bool.false_ne_true ((hends t (hused ▸ rfl)).symm.trans ht)
    rw [hused] at htokens
    obtain ⟨hrun, hrunNe⟩ := takeWhile_of_literal hliterals hends htokens
    have hliteral : IsLiteralAt text key.place literal ↔
        literal = used.flatMap (·.token.literalChars) := by
      rw [hliteralAt, hrun]
      refine and_iff_right_of_imp ?_
      rintro rfl
      exact hrunNe hne
    rw [hliteral]
    rcases hwritten with rfl | ⟨b, rfl, htext⟩
    · rw [Expr.value, List.nil_append] at hv
      obtain rfl := Except.ok.inj hv
      simp [eq_comm, String.ofList_inj]
    · rw [Expr.value] at hv
      rw [List.nil_append] at htext
      obtain rfl := Except.ok.inj hv
      simp [htext]
  · rw [Expr.value] at hv
    obtain ⟨vs, -, hv⟩ := bind_eq_ok.1 hv
    obtain rfl := Except.ok.inj hv
    exact iff_of_false (hnone (by rw [ht]; rfl)) (by simp)
  · rw [Expr.value] at hv
    obtain ⟨t', -, hv⟩ := bind_eq_ok.1 hv
    obtain rfl := Except.ok.inj hv
    exact iff_of_false (hnone (by rw [ht]; rfl)) (by simp)

end RegisterTables.Toml
