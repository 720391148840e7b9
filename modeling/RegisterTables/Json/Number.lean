import RegisterTables.Double.Shortest
import RegisterTables.Text.Numeral

/-!
# Numbers in JSON

A number is first read as it is written, and then stands for an integer of 64 bits or for a number
of double precision. `Number.text?` is the text of what it stands for. An integer is written with
all its digits. Any other number is computed in a few steps, each of which rounds, so it need not be
the nearest one to what was written.
-/

namespace RegisterTables.Json

/-- The power of ten behind a number. -/
structure Exponent where
  /-- Whether a minus sign stands in front. -/
  negative : Bool
  /-- The digits. -/
  digits : List Char
deriving DecidableEq, Repr

/-- A number as it is written. -/
structure Number where
  /-- Whether a minus sign stands in front. -/
  negative : Bool
  /-- The digits in front of the point. -/
  whole : List Char
  /-- The digits behind the point; none if there is no point. -/
  fraction : List Char
  /-- The power of ten, if one is written. -/
  exponent : Option Exponent
deriving DecidableEq, Repr

namespace Number

/-! ### Reading -/

/-- Reads one or more digits. -/
def digits? (cs : List Char) : Option (List Char × List Char) :=
  if cs.head?.any Char.isDigit then some (cs.takeWhile Char.isDigit, cs.dropWhile Char.isDigit)
  else none

/-- Reads the digits in front of the point. A zero is followed by no other digit. -/
def whole? : List Char → Option (List Char × List Char)
  | '0' :: cs => some (['0'], cs)
  | cs => digits? cs

/-- Reads the digits behind the point, if there is one. -/
def fraction? : List Char → Option (List Char × List Char)
  | '.' :: cs => digits? cs
  | cs => some ([], cs)

/-- Drops a sign. The answer tells whether it was a minus sign. -/
def sign : List Char → Bool × List Char
  | '-' :: cs => (true, cs)
  | '+' :: cs => (false, cs)
  | cs => (false, cs)

/-- Reads the power of ten, if there is one. -/
def exponent? : List Char → Option (Option Exponent × List Char)
  | c :: cs =>
    if c = 'e' ∨ c = 'E' then do
      let (negative, cs) := sign cs
      let (digits, cs) ← digits? cs
      return (some ⟨negative, digits⟩, cs)
    else some (none, c :: cs)
  | [] => some (none, [])

/-- Reads a number. -/
def read? (cs : List Char) : Option (Number × List Char) := do
  let negative := cs.head? == some '-'
  let (whole, cs) ← whole? (if negative then cs.tail else cs)
  let (fraction, cs) ← fraction? cs
  let (exponent, cs) ← exponent? cs
  return (⟨negative, whole, fraction, exponent⟩, cs)

theorem suffix_digits? {cs ds rest : List Char} (h : digits? cs = some (ds, rest)) :
    rest <:+ cs ∧ rest.length < cs.length := by
  unfold digits? at h
  split at h
  · rename_i hd
    simp only [Option.some.injEq, Prod.mk.injEq] at h
    obtain ⟨-, rfl⟩ := h
    refine ⟨List.dropWhile_suffix _, ?_⟩
    cases cs with
    | nil => simp at hd
    | cons c cs =>
      simp only [List.head?_cons, Option.any_some] at hd
      simp only [List.dropWhile_cons, hd, ↓reduceIte, List.length_cons]
      have := (List.dropWhile_suffix Char.isDigit (l := cs)).length_le
      omega
  · simp at h

theorem length_whole? {cs ds rest : List Char} (h : whole? cs = some (ds, rest)) :
    rest.length < cs.length := by
  unfold whole? at h
  split at h
  · simp only [Option.some.injEq, Prod.mk.injEq] at h
    simp [h.2]
  · exact (suffix_digits? h).2

theorem length_fraction? {cs ds rest : List Char} (h : fraction? cs = some (ds, rest)) :
    rest.length ≤ cs.length := by
  unfold fraction? at h
  split at h
  · have := (suffix_digits? h).2
    simp only [List.length_cons]
    omega
  · simp only [Option.some.injEq, Prod.mk.injEq] at h
    simp [h.2]

theorem length_sign (cs : List Char) : (sign cs).2.length ≤ cs.length := by
  unfold sign
  split <;> simp

theorem length_exponent? {cs rest : List Char} {e : Option Exponent}
    (h : exponent? cs = some (e, rest)) : rest.length ≤ cs.length := by
  unfold exponent? at h
  split at h
  · rename_i c cs
    split at h
    · cases hd : digits? (sign cs).2 with
      | none => simp [hd] at h
      | some p =>
        have := (suffix_digits? hd).2
        have := length_sign cs
        simp [hd] at h
        simp only [← h.2, List.length_cons]
        omega
    · simp only [Option.some.injEq, Prod.mk.injEq] at h
      simp [← h.2]
  · simp only [Option.some.injEq, Prod.mk.injEq] at h
    simp [← h.2]

theorem length_read? {cs rest : List Char} {n : Number} (h : read? cs = some (n, rest)) :
    rest.length < cs.length := by
  unfold read? at h
  simp only [Option.bind_eq_bind, Option.bind_eq_some_iff, Option.pure_def, Option.some.injEq,
    Prod.mk.injEq, Prod.exists] at h
  obtain ⟨_, r₁, h₁, _, r₂, h₂, _, r₃, h₃, -, rfl⟩ := h
  have := length_whole? h₁
  have := length_fraction? h₂
  have := length_exponent? h₃
  split at * <;> simp_all <;> omega

/-! ### What a number stands for -/

/-- The digits and the power of ten that are computed with. -/
structure Significand where
  /-- The digits that fit into 64 bits. -/
  value : Nat
  /-- The power of ten. -/
  power : Int
deriving DecidableEq, Repr

/-- Takes digits in front of the point as long as they fit. The others count as zeros. -/
def takeWhole (value : Nat) : List Char → Significand
  | [] => ⟨value, 0⟩
  | c :: cs =>
    let next := 10 * value + Text.valueIn 10 [c]
    if next < Nat.pow 2 64 then takeWhole next cs else ⟨value, (c :: cs).length⟩

/-- Takes digits behind the point as long as they fit. The others are dropped. -/
def takeFraction (s : Significand) : List Char → Significand
  | [] => s
  | c :: cs =>
    let next := 10 * s.value + Text.valueIn 10 [c]
    if next < Nat.pow 2 64 then takeFraction ⟨next, s.power - 1⟩ cs else s

/-- The significand of a number, its written power of ten left aside. -/
def significand (n : Number) : Significand :=
  takeFraction (takeWhole 0 n.whole) n.fraction

/-- Multiplies by a power of ten. A power of which there is no number of double precision is taken
in steps of 308; then nothing but zero can be multiplied, while dividing may end at zero. -/
def scale? (d : Double) (power : Int) : Option Double :=
  if d.isZero then some d
  else if 308 < power then none
  else if 0 ≤ power then do d.mul? (← Double.tenPower? power.toNat)
  else if -308 ≤ power then do d.div? (← Double.tenPower? (-power).toNat)
  else do scale? (← d.div? (← Double.tenPower? 308)) (power + 308)
termination_by (-power).toNat

/-- The number of double precision that a number stands for, its sign left aside. It has none if
that is not finite. A power of ten that does not fit into 32 bits is beyond all of them. -/
def double? (n : Number) : Option Double := do
  let s := n.significand
  let d ← Double.nearest? s.value
  match n.exponent with
  | none => scale? d s.power
  | some e =>
    let power : Int := Text.valueIn 10 e.digits
    if power < Int.pow 2 31 then
      scale? d (if e.negative then s.power - power else s.power + power)
    else if e.negative || d.isZero then some Double.zero
    else none

/-- The integer of 64 bits that a number stands for, if it does. Minus zero is no integer. -/
def integer? (n : Number) : Option Int :=
  if n.fraction.isEmpty && n.exponent.isNone then
    let value := Text.valueIn 10 n.whole
    if n.negative then
      if 0 < value ∧ value ≤ Nat.pow 2 63 then some (-value) else none
    else if value < Nat.pow 2 64 then some value
    else none
  else none

/-- The text of what a number stands for, if that is finite. -/
def text? (n : Number) : Option String :=
  match n.integer? with
  | some i => some (toString i)
  | none => n.double?.map (Double.text n.negative)

end Number

end RegisterTables.Json
