import RegisterTables.Text.Numeral
import RegisterTables.Toml.Fault

/-!
# Strings in TOML

A string stands between double quotes and may hold escapes, or between apostrophes and holds what it
shows. Either kind opens with one mark, and ends on its line, or with three marks, and may go on
over several lines. The readers here take the characters after the opening mark and return the value
of the string with the characters after its closing mark.
-/

namespace RegisterTables.Toml

/-- The two kinds of strings. -/
inductive Quote where
  /-- Between double quotes, with escapes. -/
  | basic
  /-- Between apostrophes, without escapes. -/
  | literal
deriving DecidableEq, Repr

namespace Quote

/-- The mark at both ends of a string. -/
def mark : Quote → Char
  | basic => '"'
  | literal => '\''

/-- Whether a string may hold the character as it is. -/
def allows (c : Char) : Bool :=
  c == '\t' || (0x20 ≤ c.toNat && c != '\x7f')

/-! ### Escapes -/

/-- Reads `n` more hexadecimal digits of a code whose digits so far have the value `code`. -/
def hexCode : (n code : Nat) → List Char → Except Fault (Nat × List Char)
  | 0, code, cs => .ok (code, cs)
  | _ + 1, _, [] => .error .unterminatedString
  | n + 1, code, c :: cs =>
    match Text.digitValue? c with
    | some d => hexCode n (16 * code + d) cs
    | none => .error (.invalidHexDigit c)

/-- Reads the character whose code has `n` hexadecimal digits. -/
def codedChar (n : Nat) (cs : List Char) : Except Fault (Char × List Char) :=
  match hexCode n 0 cs with
  | .error fault => .error fault
  | .ok (code, rest) =>
    if code.isValidChar then .ok (Char.ofNat code, rest) else .error (.invalidCode code)

/-- Whether the character is a space or a tab. -/
def isIndent (c : Char) : Bool :=
  c == ' ' || c == '\t'

/-- What is left after a line that ends in a backslash: the rest of that line may hold only spaces
and tabs, and the blank start of the text that follows is dropped, line ends included. -/
def afterLineEnd? (cs : List Char) : Option (List Char) :=
  match cs.dropWhile isIndent with
  | [] => some []
  | '\n' :: rest => some (rest.dropWhile fun c => isIndent c || c == '\n')
  | _ => none

/-- Reads what follows a backslash: the character that is meant, or none if the backslash only
continues a line. -/
def escape (multiline : Bool) : List Char → Except Fault (Option Char × List Char)
  | [] => .error .unterminatedString
  | c :: cs =>
    match c with
    | '"' => .ok (some '"', cs)
    | '\\' => .ok (some '\\', cs)
    | 'b' => .ok (some '\x08', cs)
    | 'f' => .ok (some '\x0c', cs)
    | 'n' => .ok (some '\n', cs)
    | 'r' => .ok (some '\r', cs)
    | 't' => .ok (some '\t', cs)
    | 'u' => (codedChar 4 cs).map fun (c, rest) => (some c, rest)
    | 'U' => (codedChar 8 cs).map fun (c, rest) => (some c, rest)
    | c =>
      if multiline && (isIndent c || c == '\n') then
        match afterLineEnd? (c :: cs) with
        | some rest => .ok (none, rest)
        | none => .error (.invalidEscape c)
      else .error (.invalidEscape c)

theorem length_hexCode {n code value : Nat} {cs rest : List Char}
    (h : hexCode n code cs = .ok (value, rest)) : rest.length ≤ cs.length := by
  induction n generalizing code cs with
  | zero => simp [hexCode] at h; simp [h.2]
  | succ n ih =>
    cases cs with
    | nil => simp [hexCode] at h
    | cons c cs =>
      simp only [hexCode] at h
      split at h
      · exact Nat.le_succ_of_le (ih h)
      · simp at h

theorem length_codedChar {n : Nat} {c : Char} {cs rest : List Char}
    (h : codedChar n cs = .ok (c, rest)) : rest.length ≤ cs.length := by
  unfold codedChar at h
  split at h
  · simp at h
  · rename_i hc
    split at h
    · simp only [Except.ok.injEq, Prod.mk.injEq] at h
      exact h.2 ▸ length_hexCode hc
    · simp at h

theorem length_dropWhile_le (p : Char → Bool) (cs : List Char) :
    (cs.dropWhile p).length ≤ cs.length :=
  (List.dropWhile_sublist p).length_le

theorem length_afterLineEnd? {cs rest : List Char} (h : afterLineEnd? cs = some rest)
    (hcs : cs ≠ []) : rest.length < cs.length := by
  have hle := length_dropWhile_le isIndent cs
  unfold afterLineEnd? at h
  split at h
  · cases h
    exact List.length_pos_iff.2 hcs
  · rename_i tail ht
    cases h
    have := length_dropWhile_le (fun c => isIndent c || c == '\n') tail
    rw [ht, List.length_cons] at hle
    omega
  · simp at h

theorem length_escape {multiline : Bool} {c : Option Char} {cs rest : List Char}
    (h : escape multiline cs = .ok (c, rest)) : rest.length < cs.length := by
  cases cs with
  | nil => simp [escape] at h
  | cons d cs =>
    have coded {n : Nat}
        (hc : (codedChar n cs).map (fun (c, rest) => (some c, rest)) = .ok (c, rest)) :
        rest.length ≤ cs.length := by
      cases hn : codedChar n cs with
      | error fault => simp [hn, Except.map] at hc
      | ok value =>
        simp only [hn, Except.map, Except.ok.injEq, Prod.mk.injEq] at hc
        exact hc.2 ▸ length_codedChar (c := value.1) hn
    simp only [escape] at h
    split at h
    case h_8 => exact Nat.lt_succ_of_le (coded h)
    case h_9 => exact Nat.lt_succ_of_le (coded h)
    case h_10 =>
      split at h
      · split at h
        · rename_i hrest
          simp only [Except.ok.injEq, Prod.mk.injEq] at h
          exact h.2 ▸ length_afterLineEnd? hrest (by simp)
        · simp at h
      · simp at h
    all_goals
      simp only [Except.ok.injEq, Prod.mk.injEq] at h
      simp [← h.2]

/-! ### Contents -/

/-- Puts a character in front of the value that was read. -/
def prepend (c : Char) : Except Fault (List Char × List Char) → Except Fault (List Char × List Char)
  | .ok (value, rest) => .ok (c :: value, rest)
  | .error fault => .error fault

/-- The marks directly after the three that end a string of several lines, of which up to two still
belong to its value. -/
def trailingMarks (mark : Char) : List Char → List Char × List Char
  | [] => ([], [])
  | c :: cs =>
    if c = mark then
      match cs with
      | d :: rest => if d = mark then ([c, d], rest) else ([c], cs)
      | [] => ([c], [])
    else ([], c :: cs)

/-- Whether two marks follow. -/
def closes (mark : Char) : List Char → Bool
  | c :: d :: _ => c == mark && d == mark
  | _ => false

/-- Reads a string up to its end. -/
def content (q : Quote) (multiline : Bool) (cs : List Char) :
    Except Fault (List Char × List Char) :=
  match cs with
  | [] => .error .unterminatedString
  | c :: cs =>
    if c = q.mark then
      if multiline then
        if closes q.mark cs then .ok (trailingMarks q.mark (cs.drop 2))
        else prepend c (content q multiline cs)
      else .ok ([], cs)
    else if c = '\n' then
      if multiline then prepend c (content q multiline cs) else .error (.invalidCharacter c)
    else if c = '\\' ∧ q = basic then
      match _ : escape multiline cs with
      | .error fault => .error fault
      | .ok (some d, rest) => prepend d (content q multiline rest)
      | .ok (none, rest) => content q multiline rest
    else if allows c then prepend c (content q multiline cs)
    else .error (.invalidCharacter c)
termination_by cs.length
decreasing_by
  all_goals simp only [List.length_cons]
  all_goals first
    | omega
    | (rename_i h; have := length_escape h; omega)

/-- Reads a string whose opening mark was read: two marks that no third one follows are the empty
string, and a line end directly after three marks is dropped. The flag tells whether there were
three. -/
def read (q : Quote) (cs : List Char) : Except Fault ((List Char × Bool) × List Char) :=
  let line := (content q false cs).map fun (value, rest) => ((value, false), rest)
  let lines := fun cs => (content q true cs).map fun (value, rest) => ((value, true), rest)
  if closes q.mark cs then
    match cs.drop 2 with
    | '\n' :: rest => lines rest
    | rest => lines rest
  else line

/-! ### Readers leave less than they were given -/

theorem length_trailingMarks (mark : Char) (cs : List Char) :
    (trailingMarks mark cs).2.length ≤ cs.length := by
  unfold trailingMarks
  repeat' split
  all_goals simp <;> omega

theorem length_prepend {c : Char} {r : Except Fault (List Char × List Char)}
    {value rest : List Char} (h : prepend c r = .ok (value, rest)) :
    ∃ tail, r = .ok (tail, rest) := by
  unfold prepend at h
  split at h
  · rename_i tail rest'
    simp only [Except.ok.injEq, Prod.mk.injEq] at h
    exact ⟨tail, by rw [h.2]⟩
  · simp at h

theorem length_content {q : Quote} {multiline : Bool} {cs value rest : List Char}
    (h : content q multiline cs = .ok (value, rest)) : rest.length < cs.length := by
  induction hn : cs.length using Nat.strongRecOn generalizing cs value with
  | _ n ih =>
    subst hn
    have step {c : Char} {ds : List Char} (hd : ds.length < cs.length)
        (hp : prepend c (content q multiline ds) = .ok (value, rest)) :
        rest.length < cs.length := by
      obtain ⟨tail, ht⟩ := length_prepend hp
      exact Nat.lt_trans (ih _ hd ht rfl) hd
    unfold content at h
    split at h
    · simp at h
    · rename_i c cs
      split at h
      · split at h
        · split at h
          · simp only [Except.ok.injEq] at h
            have := length_trailingMarks q.mark (cs.drop 2)
            simp only [h, List.length_drop] at this
            simp only [List.length_cons]
            omega
          · exact step (by simp) h
        · simp only [Except.ok.injEq, Prod.mk.injEq] at h
          simp [← h.2]
      · split at h
        · split at h
          · exact step (by simp) h
          · simp at h
        · split at h
          · split at h
            · simp at h
            · rename_i he
              have := length_escape he
              exact step (by simp only [List.length_cons]; omega) h
            · rename_i he
              have hlt := length_escape he
              have hle := ih _ (by simp only [List.length_cons]; omega) h rfl
              simp only [List.length_cons]
              omega
          · split at h
            · exact step (by simp) h
            · simp at h

theorem length_read {q : Quote} {cs rest : List Char} {value : List Char × Bool}
    (h : read q cs = .ok (value, rest)) : rest.length < cs.length := by
  have mapped {ds : List Char} {multiline : Bool}
      (hm : (content q multiline ds).map (fun (value, rest) => ((value, multiline), rest))
        = .ok (value, rest)) : rest.length < ds.length := by
    cases hc : content q multiline ds with
    | error fault => simp [hc, Except.map] at hm
    | ok pair =>
      obtain ⟨content, tail⟩ := pair
      simp only [hc, Except.map, Except.ok.injEq, Prod.mk.injEq] at hm
      exact hm.2 ▸ length_content hc
  simp only [read] at h
  split at h
  · have hd : (cs.drop 2).length ≤ cs.length := by simp
    split at h
    · rename_i tail ht
      have := mapped h
      rw [ht, List.length_cons] at hd
      omega
    · exact Nat.lt_of_lt_of_le (mapped h) hd
  · exact mapped h

end Quote

end RegisterTables.Toml
