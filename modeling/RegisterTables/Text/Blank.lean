/-!
# Blank characters

The characters with the Unicode property White_Space: 25 code points in ten ranges. Messages about
a single character write a blank one by its code, since it could not be seen, except that a plain
space stays a space.
-/

namespace RegisterTables.Text

/-- The closed ranges of blank code points, ascending. -/
def blankRanges : List (Nat × Nat) :=
  [(0x09, 0x0D), (0x20, 0x20), (0x85, 0x85), (0xA0, 0xA0), (0x1680, 0x1680), (0x2000, 0x200A),
   (0x2028, 0x2029), (0x202F, 0x202F), (0x205F, 0x205F), (0x3000, 0x3000)]

/-- Whether a code point lies in one of the closed ranges. -/
def inRanges (ranges : List (Nat × Nat)) (n : Nat) : Bool :=
  ranges.any fun r => r.1 ≤ n && n ≤ r.2

/-- Whether the character is blank. -/
def isBlank (c : Char) : Bool :=
  inRanges blankRanges c.toNat

example : (blankRanges.map fun r => r.2 + 1 - r.1).sum = 25 := by decide

/-- The code of a character in braces: lower-case hexadecimal digits without padding. -/
def codeEscape (c : Char) : List Char :=
  ['\\', 'u', '{'] ++ Nat.toDigits 16 c.toNat ++ ['}']

/-- How a message shows a single character. -/
def shown (c : Char) : List Char :=
  if c = '\t' then ['\\', 't']
  else if c = '\n' then ['\\', 'n']
  else if c = '\r' then ['\\', 'r']
  else if c != ' ' && isBlank c then codeEscape c
  else [c]

end RegisterTables.Text
