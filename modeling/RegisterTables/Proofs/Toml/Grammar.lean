import RegisterTables.Proofs.Toml.Lexing
import RegisterTables.Toml.Syntax

/-!
# Steps of the reader of TOML

What the reader does with the first tokens of what is left: a token that may start a value is
neither skipped nor taken for the end of anything, a string is a key or a value, and a decimal
number of 64 bits is read as it is written (`Toml.value_integer`), if neither a point nor a fault
follows it. A line is read as a header or as an entry.
-/

namespace RegisterTables.Toml

/-! ### First tokens -/

/-- A token is what is expected of itself. -/
theorem expect_self (t : Token) (n : ℕ) (ts : List Lexeme) : expect t (⟨t, n⟩ :: ts) = .ok ts := by
  rw [expect, if_pos rfl]

/-- Whether a value may start with this token. -/
def Token.startsValue : Token → Bool
  | string _ _ | word _ | leftBracket | leftBrace => true
  | _ => false

/-- A value may start here. -/
def StartsValue (ts : List Lexeme) : Prop :=
  ∃ t rest, ts = t :: rest ∧ t.token.startsValue = true

theorem StartsValue.skipLines_eq {ts : List Lexeme} (h : StartsValue ts) :
    skipLines ts = .ok ts := by
  obtain ⟨⟨t, n⟩, rest, rfl, ht⟩ := h
  cases t with
  | string _ _ | word _ | leftBracket | leftBrace => rfl
  | _ => exact absurd ht Bool.false_ne_true

theorem StartsValue.skipBlank_eq {ts : List Lexeme} (h : StartsValue ts) : skipBlank ts = ts := by
  obtain ⟨⟨t, n⟩, rest, rfl, ht⟩ := h
  cases t with
  | string _ _ | word _ | leftBracket | leftBrace => rfl
  | _ => exact absurd ht Bool.false_ne_true

/-- A key is a word or a string, in front of an equals sign without a blank. -/
theorem keyPath_equals {t : Token} {key : String}
    (ht : t = .word key.toList ∨ t = .string key.toList false) (n m : ℕ) (ts : List Lexeme) :
    keyPath (⟨t, n⟩ :: ⟨.equals, m⟩ :: ts) = .ok ([⟨key, n⟩], ⟨.equals, m⟩ :: ts) := by
  rcases ht with rfl | rfl <;> simp [keyPath, keyPathAfter]

/-! ### Single values -/

/-- A string is read as a value. -/
theorem value_string {fuel : ℕ} (hfuel : fuel ≠ 0) (text : List Char) (multiline : Bool) (n : ℕ)
    (ts : List Lexeme) :
    value fuel (⟨.string text multiline, n⟩ :: ts) = .ok (.string (String.ofList text), ts) := by
  obtain ⟨fuel, rfl⟩ := Nat.exists_eq_succ_of_ne_zero hfuel
  simp only [value]

/-- A truth value is read. -/
theorem value_bool {fuel : ℕ} (hfuel : fuel ≠ 0) (b : Bool) (n : ℕ) (ts : List Lexeme) :
    value fuel (⟨.word (toString b).toList, n⟩ :: ts) = .ok (.bool b, ts) := by
  obtain ⟨fuel, rfl⟩ := Nat.exists_eq_succ_of_ne_zero hfuel
  cases b with
  | true => rfl
  | false => rfl

/-- A number may end in front of this: neither a fraction follows nor a token that is none. -/
def EndsNumber (ts : List Lexeme) : Prop :=
  ∀ t ∈ ts.head?, t.token ≠ .period ∧ ∀ fault, t.token ≠ .invalid fault

namespace Number

/-- A run of digits without underscores is well separated. -/
theorem isSeparated_of_notMem {ds : List Char} (hne : ds ≠ []) (h : '_' ∉ ds) :
    isSeparated ds = true := by
  induction ds with
  | nil => exact absurd rfl hne
  | cons c ds ih =>
    rw [List.mem_cons, not_or] at h
    cases ds with
    | nil =>
      unfold isSeparated
      split <;> simp_all
    | cons d ds =>
      have hrest := ih (List.cons_ne_nil d ds) h.2
      unfold isSeparated
      split <;> simp_all

/-- Decimal digits are a run, behind a sign if there is one. -/
theorem run?_digits (negative : Bool) {digits : List Char} (hne : digits ≠ [])
    (hdigit : ∀ c ∈ digits, c.isDigit = true)
    (hleading : digits.head? ≠ some '0' ∨ digits.length = 1) :
    run? 10 true false ((if negative then ['-'] else []) ++ digits)
      = some ⟨negative, digits, []⟩ := by
  have hunderscore : ∀ c ∈ digits, (c != '_') = true := by
    intro c hc
    rw [bne_iff_ne]
    rintro rfl
    exact absurd (hdigit _ hc) (by decide)
  have htake : digits.takeWhile (fun c => Text.isDigitIn 10 c || c == '_') = digits := by
    refine List.takeWhile_eq_self_iff.2 fun c hc => ?_
    rw [Text.isDigitIn_of_isDigit (hdigit c hc), Bool.true_or]
  have hseparated : isSeparated digits = true :=
    isSeparated_of_notMem hne fun h => absurd (hunderscore _ h) (by decide)
  have hfilter : digits.filter (· != '_') = digits := List.filter_eq_self.2 hunderscore
  have hzero : (digits.head? != some '0' || digits.length == 1) = true := by
    rwa [Bool.or_eq_true, bne_iff_ne, beq_iff_eq]
  have hsign : (digits.head? == some '-') = false := by
    obtain ⟨c, cs, rfl⟩ := List.exists_cons_of_ne_nil hne
    rw [List.head?_cons, beq_eq_false_iff_ne, Ne, Option.some.injEq]
    rintro rfl
    exact absurd (hdigit _ List.mem_cons_self) (by decide)
  cases negative with
  | true => simp [run?, htake, hseparated, hzero, hfilter]
  | false => simp [run?, hsign, htake, hseparated, hzero, hfilter]

/-- The digits of an integer are a run, behind its sign. -/
theorem run?_toString (i : ℤ) :
    run? 10 true false (toString i).toList
      = some ⟨decide (i < 0), Nat.toDigits 10 i.natAbs, []⟩ := by
  have hleading : (Nat.toDigits 10 i.natAbs).head? ≠ some '0' ∨
      (Nat.toDigits 10 i.natAbs).length = 1 := by
    by_cases hzero : i.natAbs = 0
    · rw [hzero]
      exact .inr rfl
    · exact .inl (Text.head?_toDigits hzero)
  have hrun := run?_digits (decide (i < 0)) Nat.toDigits_ne_nil
    (fun c hc => Text.isDigit_of_mem_toDigits hc) hleading
  rw [Text.toList_toString_int, ← hrun]
  simp only [decide_eq_true_eq]

/-- An integer of 64 bits is one. -/
theorem isInteger_toString {i : ℤ} (hlow : -2 ^ 63 ≤ i) (hhigh : i < 2 ^ 63) :
    isInteger (toString i).toList = true := by
  rw [isInteger, run?_toString]
  simp only [List.isEmpty_nil, Bool.true_and, Text.valueIn_toDigits, Nat.pow_eq, Bool.or_eq_true,
    Bool.and_eq_true, decide_eq_true_eq, beq_iff_eq]
  omega

/-- An integer is read as it is written. -/
theorem read_toString {i : ℤ} (hlow : -2 ^ 63 ≤ i) (hhigh : i < 2 ^ 63) {ts : List Lexeme}
    (hts : EndsNumber ts) :
    read false (toString i).toList ts = .ok ((toString i).toList, ts) := by
  have hchars : ∀ c ∈ (toString i).toList, c = '-' ∨ c.isDigit = true :=
    fun c hc => Text.eq_or_isDigit_of_mem_toString hc
  have hnotMem {c : Char} (hc : c ≠ '-' ∧ c.isDigit = false) : c ∉ (toString i).toList := by
    intro hmem
    rcases hchars c hmem with h | h
    · exact hc.1 h
    · exact Bool.false_ne_true (hc.2.symm.trans h)
  have hexponent : ((toString i).toList.any fun c => c == 'e' || c == 'E') = false := by
    rw [List.any_eq_false]
    intro c hc
    rw [Bool.or_eq_true, beq_iff_eq, beq_iff_eq]
    rintro (rfl | rfl)
    · exact hnotMem (by decide) hc
    · exact hnotMem (by decide) hc
  have hinteger := isInteger_toString hlow hhigh
  have hx : 'x' ∉ (toString i).toList := hnotMem (by decide)
  have ho : 'o' ∉ (toString i).toList := hnotMem (by decide)
  have hb : 'b' ∉ (toString i).toList := hnotMem (by decide)
  generalize (toString i).toList = word at *
  simp only [read, Bool.false_eq_true, if_false]
  split
  · exact absurd (by simp) hx
  · exact absurd (by simp) ho
  · exact absurd (by simp) hb
  · -- It is no number in another base, and neither an exponent nor a fraction follows.
    rw [hexponent, if_neg Bool.false_ne_true]
    split
    · exact absurd rfl (hts _ rfl).1
    · exact absurd rfl (hts _ rfl).1
    · exact absurd rfl (hts _ rfl).1
    · exact absurd rfl ((hts _ rfl).2 _)
    · rw [hinteger, Bool.or_true, if_pos rfl]

end Number

/-- An integer is read as a value. -/
theorem value_integer {fuel : ℕ} (hfuel : fuel ≠ 0) {i : ℤ} (hlow : -2 ^ 63 ≤ i)
    (hhigh : i < 2 ^ 63) (n : ℕ) {ts : List Lexeme} (hts : EndsNumber ts) :
    value fuel (⟨.word (toString i).toList, n⟩ :: ts) = .ok (.number (toString i), ts) := by
  obtain ⟨fuel, rfl⟩ := Nat.exists_eq_succ_of_ne_zero hfuel
  obtain ⟨c, cs, hcons, hc⟩ := Text.exists_cons_toString i
  have hne {d : Char} {ds : List Char} (hd : d ≠ '-' ∧ d.isDigit = false) :
      (toString i).toList ≠ d :: ds := by
    rw [hcons]
    intro heq
    obtain ⟨rfl, -⟩ := List.cons.inj heq
    rcases hc with hc | hc
    · exact hd.1 hc
    · exact Bool.false_ne_true (hd.2.symm.trans hc)
  have htrue : (toString i).toList ≠ "true".toList := hne (d := 't') (by decide)
  have hfalse : (toString i).toList ≠ "false".toList := hne (d := 'f') (by decide)
  have hstarts : startsNumber (toString i).toList = true := by
    rw [startsNumber, hcons]
    rcases hc with rfl | hc
    · simp
    · simp [hc]
  have hread := Number.read_toString hlow hhigh hts
  simp only [value]
  rw [if_neg htrue, if_neg hfalse, if_pos hstarts, numberValue, hread]
  simp only [bind, Except.bind, String.ofList_toList]
  rfl

/-! ### Lines -/

/-- Where an entry is found, it is added to the block. -/
theorem lines_of_entry {block : Block} {body : Body} {ts rest : List Lexeme}
    (hskip : skipLines ts = .ok ts) (hne : ts ≠ [])
    (hbracket : ∀ n ts', ts ≠ ⟨.leftBracket, n⟩ :: ts')
    (hentry : entry block.body ts = .ok (body, rest)) (fuel : ℕ) :
    lines (fuel + 1) block ts = lines fuel { block with body := body } rest := by
  rw [lines, hskip]
  simp only [bind, Except.bind, hentry]

/-- Where a header is found, the block is finished and the next one begins. -/
theorem lines_of_header {next : Block} {ts rest : List Lexeme}
    (hheader : header ts = .ok (next, rest)) (fuel : ℕ) (block : Block) (n : ℕ) :
    lines (fuel + 1) block (⟨.leftBracket, n⟩ :: ts)
      = (lines fuel next rest).map (block :: ·) := by
  have hskip : skipLines (⟨.leftBracket, n⟩ :: ts) = .ok (⟨.leftBracket, n⟩ :: ts) := rfl
  rw [lines, hskip]
  simp only [bind, Except.bind, hheader]
  cases lines fuel next rest with
  | error fault => rfl
  | ok blocks => rfl

end RegisterTables.Toml
