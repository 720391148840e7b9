import Mathlib.Data.String.Basic

/-!
# The order of texts is the order of their bytes

Texts are compared character by character. `Text.bytes_lt_iff` says that comparing the bytes of
their UTF-8 forms gives the same answer. The reason is that the form of a character with a smaller
code is smaller at some byte, whatever follows it (`Text.utf8EncodeChar_append_lt`): the first byte
tells how many there are, and the digits of the code to the base 64 follow from the highest on.
-/

namespace RegisterTables.Text

/-- The bytes of a text in UTF-8. -/
def bytes (s : String) : List UInt8 :=
  s.toUTF8.data.toList

/-- The bytes of a text are those of its characters, one after the other. -/
theorem bytes_eq_flatMap (s : String) : bytes s = s.toList.flatMap String.utf8EncodeChar := by
  rw [bytes, String.toUTF8_eq_toByteArray]
  conv_lhs => rw [← String.ofList_toList (s := s)]
  exact List.toList_data_toByteArray

/-- Codes end below `0x110000`. -/
theorem toNat_val_lt (c : Char) : c.val.toNat < 0x110000 := by
  have h := c.valid
  simp only [UInt32.isValidChar, Nat.isValidChar] at h
  omega

/-- The bytes of the smaller one of two characters are smaller, whatever follows them. -/
theorem utf8EncodeChar_append_lt {c d : Char} (h : c < d) (l₁ l₂ : List UInt8) :
    String.utf8EncodeChar c ++ l₁ < String.utf8EncodeChar d ++ l₂ := by
  have hcd : c.val.toNat < d.val.toNat := h
  have hc := toNat_val_lt c
  have hd := toNat_val_lt d
  -- The bytes after the first are digits to the base 64, so all quotients are by 64.
  have h₁ (n : ℕ) : n / 4096 = n / 64 / 64 := by rw [Nat.div_div_eq_div_mul]
  have h₂ (n : ℕ) : n / 262144 = n / 64 / 64 / 64 := by
    rw [Nat.div_div_eq_div_mul, Nat.div_div_eq_div_mul]
  unfold String.utf8EncodeChar
  simp only [h₁, h₂]
  generalize c.val.toNat = m at *
  generalize d.val.toNat = n at *
  split_ifs <;>
    simp only [List.cons_append, List.nil_append, List.cons_lt_cons_iff, UInt8.lt_iff_toNat_lt,
      ← UInt8.toNat_inj, UInt8.toNat_ofNat'] <;>
    simp (disch := omega) only [Nat.mod_eq_of_lt] <;>
    omega

/-- The bytes of the smaller one of two texts are smaller. -/
theorem flatMap_utf8EncodeChar_lt {cs ds : List Char} (h : cs < ds) :
    cs.flatMap String.utf8EncodeChar < ds.flatMap String.utf8EncodeChar := by
  induction cs generalizing ds with
  | nil =>
    cases ds with
    | nil => exact absurd h (List.lt_irrefl _)
    | cons d ds =>
      rw [List.flatMap_nil, List.flatMap_cons]
      obtain ⟨b, bs, hb⟩ := List.exists_cons_of_ne_nil (String.utf8EncodeChar_ne_nil (c := d))
      rw [hb, List.cons_append]
      exact List.nil_lt_cons b _
  | cons c cs ih =>
    cases ds with
    | nil => exact absurd h (List.not_lt_nil _)
    | cons d ds =>
      rw [List.flatMap_cons, List.flatMap_cons]
      rcases List.cons_lt_cons_iff.1 h with hcd | ⟨rfl, hcs⟩
      · exact utf8EncodeChar_append_lt hcd _ _
      · exact List.append_left_lt (ih hcs)

/-- **Texts are ordered by their bytes in UTF-8.** -/
theorem bytes_lt_iff {s t : String} : bytes s < bytes t ↔ s < t := by
  rw [String.lt_iff_toList_lt, bytes_eq_flatMap, bytes_eq_flatMap]
  constructor
  · intro h
    by_contra hst
    rcases eq_or_lt_of_le (not_lt.1 hst) with heq | hlt
    · exact absurd (heq ▸ h) (List.lt_irrefl _)
    · exact List.lt_asymm h (flatMap_utf8EncodeChar_lt hlt)
  · exact flatMap_utf8EncodeChar_lt

end RegisterTables.Text
