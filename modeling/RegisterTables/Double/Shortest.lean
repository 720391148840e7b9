import RegisterTables.Double.Basic

/-!
# The shortest decimal of a number

A number is written with the fewest digits that read back as the same number. On the grid of the
decimals with a given count of digits, only the two neighbours of the number can be the nearest that
reads back; the first grid on which one of them does gives the digits.
-/

namespace RegisterTables

/-- A decimal: `coefficient · 10 ^ power`. -/
structure Decimal where
  /-- The digits. -/
  coefficient : Nat
  /-- The exponent of the power of ten. -/
  power : Int
deriving DecidableEq, Repr

namespace Decimal

/-- The value of the decimal. -/
def toRat (d : Decimal) : Rat :=
  d.coefficient * 10 ^ d.power

/-- The digits of a positive coefficient without the zeros at the end. -/
def digits (d : Decimal) : List Char :=
  ((Nat.toDigits 10 d.coefficient).reverse.dropWhile (· == '0')).reverse

/-- The exponent of the first digit. -/
def magnitude (d : Decimal) : Int :=
  (Nat.toDigits 10 d.coefficient).length - 1 + d.power

/-- Digits `d₀ d₁ …` with the value `d₀.d₁… · 10 ^ k` as text. A magnitude from -5 to 15 is written
with a point and at least one digit behind it, any other one with an exponent that has a sign. -/
def layout (digits : List Char) (k : Int) : List Char :=
  if 0 ≤ k ∧ k < 16 then
    let whole := digits.take (k.toNat + 1)
    let fraction := digits.drop (k.toNat + 1)
    whole ++ List.replicate (k.toNat + 1 - whole.length) '0' ++ '.' ::
      (if fraction.isEmpty then ['0'] else fraction)
  else if -5 ≤ k ∧ k < 0 then
    ['0', '.'] ++ List.replicate ((-k).toNat - 1) '0' ++ digits
  else
    digits.take 1 ++ (if digits.length ≤ 1 then [] else '.' :: digits.drop 1) ++
      ['e', if k < 0 then '-' else '+'] ++ Nat.toDigits 10 k.natAbs

/-- The text of a decimal. -/
def text (d : Decimal) : List Char :=
  if d.coefficient = 0 then ['0', '.', '0'] else layout d.digits d.magnitude

end Decimal

namespace Double

/-- The greatest power of ten that is not above a positive fraction, by its exponent. -/
def floorLog10 (x : Rat) : Int :=
  let e : Int := (Nat.toDigits 10 x.num.toNat).length - (Nat.toDigits 10 x.den).length
  if 10 ^ e ≤ x then e else e - 1

/-- Whether the number is the nearest to the decimal. -/
def isReadFrom (d : Double) (decimal : Decimal) : Bool :=
  nearest? decimal.toRat == some d

/-- The nearest decimal with the given power of ten that reads back as the number, if there is one.
Of two that are equally near, it is the one with the even coefficient. -/
def onGrid? (d : Double) (power : Int) : Option Decimal :=
  let x := d.toRat / 10 ^ power
  let below : Decimal := ⟨x.floor.toNat, power⟩
  let above : Decimal := ⟨below.coefficient + 1, power⟩
  let nearer : Decimal := ⟨(roundEven x).toNat, power⟩
  if d.isReadFrom nearer then some nearer
  else if d.isReadFrom below then some below
  else if d.isReadFrom above then some above
  else none

/-- The decimal with the fewest digits that reads back as the number. Seventeen digits are always
enough. -/
def shortest (d : Double) : Decimal :=
  if d.isZero then ⟨0, 0⟩
  else
    let k := floorLog10 d.toRat
    ((List.range 17).findSome? fun (n : Nat) => d.onGrid? (k - n)).getD ⟨0, 0⟩

/-- The text of a number with its sign. -/
def text (negative : Bool) (d : Double) : String :=
  String.ofList ((if negative then ['-'] else []) ++ d.shortest.text)

end Double

end RegisterTables
