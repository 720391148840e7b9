/-!
# Numbers of double precision

The finite numbers of double precision that are not negative, as exact fractions: a mantissa of up
to 53 bits times a power of two. Every operation is the exact one followed by `Double.nearest?`,
which rounds to the nearest such number and has none to give beyond the greatest.
-/

namespace RegisterTables

/-- The integer nearest to a fraction. Of two that are equally near, it is the even one. -/
def roundEven (x : Rat) : Int :=
  let n := x.floor
  let rest := x - n
  if rest < 1 / 2 then n
  else if 1 / 2 < rest then n + 1
  else n + n % 2

/-- The greatest power of two that is not above a positive fraction, by its exponent. -/
def floorLog2 (x : Rat) : Int :=
  let e : Int := x.num.toNat.log2 - x.den.log2
  if 2 ^ e ≤ x then e else e - 1

/-- A finite number of double precision that is not negative. -/
structure Double where
  /-- The digits in front of the power of two. -/
  mantissa : Nat
  /-- The exponent of the power of two. -/
  exponent : Int
deriving DecidableEq, Repr

namespace Double

/-- The number of bits of a mantissa. -/
def bits : Nat := 53

/-- The exponent of the least positive number. -/
def leastExponent : Int := -1074

/-- The exponent of the greatest number. -/
def greatestExponent : Int := 971

/-- The number zero. -/
def zero : Double := ⟨0, leastExponent⟩

/-- The value of the number. -/
def toRat (d : Double) : Rat :=
  d.mantissa * 2 ^ d.exponent

/-- Whether the number is zero. -/
def isZero (d : Double) : Bool :=
  d.mantissa == 0

/-- The number nearest to a fraction that is not negative, if that is finite. Of two that are
equally near, it is the one with the even mantissa. -/
def nearest? (x : Rat) : Option Double :=
  if x ≤ 0 then some zero
  else
    let exponent := max (floorLog2 x - (bits - 1)) leastExponent
    let mantissa := (roundEven (x / 2 ^ exponent)).toNat
    let d : Double :=
      if mantissa < Nat.pow 2 bits then ⟨mantissa, exponent⟩
      else ⟨Nat.pow 2 (bits - 1), exponent + 1⟩
    if d.exponent ≤ greatestExponent then some d else none

/-- The product. -/
def mul? (a b : Double) : Option Double :=
  nearest? (a.toRat * b.toRat)

/-- The quotient by a positive number. -/
def div? (a b : Double) : Option Double :=
  nearest? (a.toRat / b.toRat)

/-- The number nearest to a power of ten. -/
def tenPower? (n : Nat) : Option Double :=
  nearest? (10 ^ n)

end Double

end RegisterTables
