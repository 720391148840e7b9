import RegisterTables.Text.Numeral
import Mathlib.Algebra.Group.Int.Defs
import Mathlib.Data.List.TakeWhile

/-!
# Digits of a number

A run of characters is taken as a whole in front of what is no part of it. The decimal digits of a
number, as they are written, have the number as their value (`Text.valueIn_toDigits`), and the first
of them is a zero only if there is no other one (`Text.head?_toDigits`). A code below `0x80` is
written with two zeros in front.
-/

namespace RegisterTables.Text

/-! ### Runs -/

/-- A run that cannot go on is taken as a whole. -/
theorem takeWhile_append_of_head? {α : Type} {p : α → Bool} {w rest : List α}
    (hw : ∀ c ∈ w, p c = true) (hrest : ∀ c ∈ rest.head?, p c = false) :
    (w ++ rest).takeWhile p = w ∧ (w ++ rest).dropWhile p = rest := by
  have hstop : rest.takeWhile p = [] ∧ rest.dropWhile p = rest := by
    cases rest with
    | nil => exact ⟨rfl, rfl⟩
    | cons c rest =>
      have hc : p c = false := hrest c rfl
      rw [List.takeWhile_cons_of_neg (by simp [hc]), List.dropWhile_cons_of_neg (by simp [hc])]
      exact ⟨rfl, rfl⟩
  rw [List.takeWhile_append_of_pos hw, List.dropWhile_append_of_pos hw, hstop.1, hstop.2,
    List.append_nil]
  exact ⟨rfl, rfl⟩

/-- What is left behind a run does not go on with it. -/
theorem eq_false_of_mem_head?_dropWhile {α : Type} {p : α → Bool} {l : List α} :
    ∀ c ∈ (l.dropWhile p).head?, p c = false := by
  intro c hc
  have hstop := List.head?_dropWhile_not p l
  rw [Option.mem_def.1 hc] at hstop
  exact hstop

/-! ### Decimal digits -/

/-- A decimal digit counts as it does elsewhere. -/
theorem digitValue?_of_isDigit {c : Char} (h : c.isDigit = true) :
    digitValue? c = some (c.toNat - '0'.toNat) := by
  have hrange : '0' ≤ c ∧ c ≤ '9' := by
    rw [Char.isDigit, Bool.and_eq_true, decide_eq_true_eq, decide_eq_true_eq] at h
    exact h
  rw [digitValue?, if_pos hrange]

/-- A decimal digit is one in base ten. -/
theorem isDigitIn_of_isDigit {c : Char} (h : c.isDigit = true) : isDigitIn 10 c = true := by
  have hvalue := digitValue?_of_isDigit h
  have hle : c.toNat ≤ 57 := by
    rw [Char.isDigit, Bool.and_eq_true, decide_eq_true_eq, decide_eq_true_eq] at h
    exact UInt32.le_iff_toNat_le.1 h.2
  rw [isDigitIn, hvalue]
  have hzero : '0'.toNat = 48 := rfl
  exact decide_eq_true (by omega)

theorem foldl_eq_ofDigitChars {ds : List Char} (h : ∀ c ∈ ds, c.isDigit = true) (n : ℕ) :
    ds.foldl (fun n c => 10 * n + (digitValue? c).getD 0) n = Nat.ofDigitChars 10 ds n := by
  induction ds generalizing n with
  | nil => rw [List.foldl_nil, Nat.ofDigitChars_nil]
  | cons c ds ih =>
    have hc := digitValue?_of_isDigit (h c List.mem_cons_self)
    rw [List.foldl_cons, hc, Option.getD_some, ih fun d hd => h d (List.mem_cons_of_mem _ hd),
      Nat.ofDigitChars_cons]

/-- The digits of a number are decimal ones. -/
theorem isDigit_of_mem_toDigits {n : ℕ} {c : Char} (h : c ∈ Nat.toDigits 10 n) :
    c.isDigit = true :=
  Nat.isDigit_of_mem_toDigits (by decide) (by decide) h

/-- What is no digit does not occur in the text of a number. -/
theorem notMem_toString (n : ℕ) {c : Char} (h : c.isDigit = false) : c ∉ (toString n).toList := by
  rw [Nat.toString_eq_repr, Nat.toList_repr]
  intro hmem
  exact Bool.false_ne_true (h.symm.trans (isDigit_of_mem_toDigits hmem))

/-- **The value of the digits of a number** is the number. -/
theorem valueIn_toDigits (n : ℕ) : valueIn 10 (Nat.toDigits 10 n) = n := by
  rw [valueIn, foldl_eq_ofDigitChars fun c hc => isDigit_of_mem_toDigits hc]
  exact Nat.ofDigitChars_ten_toDigits

/-- A number above zero does not start with a zero. -/
theorem head?_toDigits {n : ℕ} (h : n ≠ 0) : (Nat.toDigits 10 n).head? ≠ some '0' := by
  induction n using Nat.strongRecOn with
  | ind n ih =>
    rw [Nat.toDigits_eq_if (by decide)]
    by_cases hlt : n < 10
    · have hsmall : ∀ m < 10, m ≠ 0 → Nat.digitChar m ≠ '0' := by decide
      rw [if_pos hlt, List.head?_cons]
      exact fun heq => hsmall n hlt h (Option.some.inj heq)
    · rw [if_neg hlt, List.head?_append, Option.or_of_isSome (by simp [Nat.toDigits_ne_nil])]
      exact ih (n / 10) (by omega) (by omega)

/-! ### Integers -/

/-- An integer is written with a sign if it is below zero, and with its digits. -/
theorem toList_toString_int (i : ℤ) :
    (toString i).toList = (if i < 0 then ['-'] else []) ++ Nat.toDigits 10 i.natAbs := by
  cases i with
  | ofNat n =>
    rw [if_neg (by simp)]
    exact Nat.toList_repr
  | negSucc n =>
    rw [if_pos (Int.negSucc_lt_zero n)]
    show ("-" ++ Nat.repr (n + 1)).toList = _
    rw [String.toList_append, Nat.toList_repr]
    rfl

/-- An integer starts with a sign or a digit. -/
theorem exists_cons_toString (i : ℤ) :
    ∃ c cs, (toString i).toList = c :: cs ∧ (c = '-' ∨ c.isDigit = true) := by
  rw [toList_toString_int]
  by_cases hi : i < 0
  · exact ⟨'-', Nat.toDigits 10 i.natAbs, by rw [if_pos hi]; rfl, .inl rfl⟩
  · obtain ⟨c, cs, hcons⟩ :=
      List.exists_cons_of_ne_nil (Nat.toDigits_ne_nil (n := i.natAbs) (b := 10))
    have hc : c.isDigit = true := isDigit_of_mem_toDigits (hcons ▸ List.mem_cons_self)
    exact ⟨c, cs, by rw [if_neg hi, List.nil_append, hcons], .inr hc⟩

/-- An integer holds a sign and digits. -/
theorem eq_or_isDigit_of_mem_toString {i : ℤ} {c : Char} (h : c ∈ (toString i).toList) :
    c = '-' ∨ c.isDigit = true := by
  rw [toList_toString_int] at h
  rcases List.mem_append.1 h with h | h
  · by_cases hi : i < 0
    · rw [if_pos hi] at h
      exact .inl (List.mem_singleton.1 h)
    · rw [if_neg hi] at h
      exact absurd h List.not_mem_nil
  · exact .inr (isDigit_of_mem_toDigits h)
/-! ### Codes -/

/-- The code of a character below `0x100` in four digits. -/
def shortDigits (n : ℕ) : List Char :=
  ['0', '0', Nat.digitChar (n / 16), Nat.digitChar (n % 16)]

theorem isDigitIn_shortDigits {n : ℕ} (h : n < 0x80) :
    ∀ d ∈ shortDigits n, isDigitIn 16 d = true := by
  have hall : ∀ n < 0x80, (shortDigits n).all (isDigitIn 16) = true := by decide
  exact List.all_eq_true.1 (hall n h)

theorem valueIn_shortDigits {n : ℕ} (h : n < 0x80) : valueIn 16 (shortDigits n) = n := by
  have hall : ∀ n < 0x80, valueIn 16 (shortDigits n) = n := by decide
  exact hall n h

end RegisterTables.Text
