import RegisterTables.Text.Numeral

/-!
# Strings in JSON

A string is first read as it is written: each of its units is a character or the four digits of a
code. A code may be half of a pair that stands for one character, and a half without the other is
well formed but stands for nothing; `TextUnit.decode?` puts the pairs together and tells.
-/

namespace RegisterTables.Json

/-- A part of a string as it is written. -/
inductive TextUnit where
  /-- A character, also one written with a backslash and a letter. -/
  | char (c : Char)
  /-- A code of four hexadecimal digits. -/
  | code (n : Nat)
deriving DecidableEq, Repr

namespace TextUnit

/-- The character that a backslash and a letter stand for. -/
def ofEscape? : Char → Option Char
  | '"' => some '"'
  | '\\' => some '\\'
  | '/' => some '/'
  | 'b' => some '\x08'
  | 'f' => some '\x0c'
  | 'n' => some '\n'
  | 'r' => some '\r'
  | 't' => some '\t'
  | _ => none

/-- Reads a string without its opening mark up to the closing one. Control characters may not stand
in it. -/
def read? : List Char → Option (List TextUnit × List Char)
  | [] => none
  | '"' :: cs => some ([], cs)
  | '\\' :: 'u' :: a :: b :: c :: d :: cs =>
    if [a, b, c, d].all (Text.isDigitIn 16) then do
      let (units, rest) ← read? cs
      return (code (Text.valueIn 16 [a, b, c, d]) :: units, rest)
    else none
  | '\\' :: c :: cs => do
    let c ← ofEscape? c
    let (units, rest) ← read? cs
    return (char c :: units, rest)
  | c :: cs =>
    if c = '\\' ∨ c.toNat < 0x20 then none
    else do
      let (units, rest) ← read? cs
      return (char c :: units, rest)

/-- Whether a code is the first half of a pair. -/
def isLead (n : Nat) : Bool :=
  0xD800 ≤ n && n < 0xDC00

/-- Whether a code is the second half of a pair. -/
def isTrail (n : Nat) : Bool :=
  0xDC00 ≤ n && n < 0xE000

/-- The character that two halves stand for. -/
def pair (lead trail : Nat) : Char :=
  Char.ofNat (0x10000 + (lead - 0xD800) * 0x400 + (trail - 0xDC00))

/-- The characters of a string, if every half of a pair has its other half. -/
def decode? : List TextUnit → Option (List Char)
  | [] => some []
  | char c :: units => return c :: (← decode? units)
  | code m :: code n :: units =>
    if isLead m then
      if isTrail n then return pair m n :: (← decode? units) else none
    else if isTrail m then none
    else return Char.ofNat m :: (← decode? (code n :: units))
  | code m :: units =>
    if isLead m || isTrail m then none else return Char.ofNat m :: (← decode? units)

theorem length_read? {cs rest : List Char} {units : List TextUnit}
    (h : read? cs = some (units, rest)) : rest.length < cs.length := by
  fun_induction read? cs generalizing units rest with
  | case1 => simp at h
  | case2 cs =>
    simp only [Option.some.injEq, Prod.mk.injEq] at h
    simp [h.2]
  | case3 a b c d cs _ ih =>
    cases hr : read? cs with
    | none => simp [hr] at h
    | some r =>
      have := ih hr
      simp_all
      omega
  | case4 => simp at h
  | case5 c cs _ ih =>
    cases hc : ofEscape? c with
    | none => simp [hc] at h
    | some e =>
      cases hr : read? cs with
      | none => simp [hc, hr] at h
      | some r =>
        have := ih hr
        simp_all
        omega
  | case6 => simp at h
  | case7 c cs _ _ _ _ ih =>
    cases hr : read? cs with
    | none => simp [hr] at h
    | some r =>
      have := ih hr
      simp_all
      omega

end TextUnit

end RegisterTables.Json
