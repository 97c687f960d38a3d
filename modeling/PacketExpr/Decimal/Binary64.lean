/-!
# Binary floating-point numbers

The magnitudes of the 64-bit binary floating-point format: a significand of at most 53 bits, scaled
by a power of two between -1074 and 971.  `Binary64.ofRat?` rounds a number to the nearest of them,
a tie going to the even significand; there is none for a number that is too large.
-/

namespace PacketExpr

/-- The number `significand` times two to the power `exponent`. -/
structure Binary64 where
  significand : Nat
  exponent : Int
deriving DecidableEq

namespace Binary64

/-- The exponent of the numbers next to zero. -/
def minExponent : Int := -1074

/-- The exponent of the largest numbers. -/
def maxExponent : Int := 971

/-- Zero. -/
def zero : Binary64 := ⟨0, minExponent⟩

/-- The least significand of 53 bits, at which the distance between neighbours doubles. -/
def leastFull : Nat := 0x10000000000000

/-- The distance to the next larger number. -/
def step (number : Binary64) : Rat := (2 : Rat) ^ number.exponent

/-- The value of the number. -/
def toRat (number : Binary64) : Rat := number.significand * number.step

/-- The integer nearest to a number, an even one if two are equally near. -/
def nearestInt (value : Rat) : Int :=
  let below := value.floor
  let rest := value - below
  if 1 / 2 < rest ∨ (rest = 1 / 2 ∧ below % 2 = 1) then below + 1 else below

/-- The power of two at or below a positive number, by its exponent. -/
def binade (value : Rat) : Int :=
  let estimate : Int := (value.num.natAbs.log2 : Int) - (value.den.log2 : Int)
  if (2 : Rat) ^ estimate ≤ value then estimate else estimate - 1

/-- The floating-point number nearest to a number that is not negative. -/
def ofRat? (value : Rat) : Option Binary64 :=
  if value ≤ 0 then
    some zero
  else
    let exponent := max (binade value - 52) minExponent
    let significand := (nearestInt (value / (2 : Rat) ^ exponent)).toNat
    let rounded : Binary64 :=
      if significand = 2 * leastFull then ⟨leastFull, exponent + 1⟩ else ⟨significand, exponent⟩
    if rounded.exponent ≤ maxExponent then some rounded else none

/-- The nearest number to a product. -/
def mul? (left right : Binary64) : Option Binary64 := ofRat? (left.toRat * right.toRat)

/-- The nearest number to a quotient. -/
def div? (left right : Binary64) : Option Binary64 := ofRat? (left.toRat / right.toRat)

/-- Whether a number lies so near that it rounds to this one. -/
def isRoundingOf (number : Binary64) (value : Rat) : Bool :=
  let downward := if number.significand = leastFull ∧ minExponent < number.exponent then
      number.step / 4 else number.step / 2
  let lower := number.toRat - downward
  let upper := number.toRat + number.step / 2
  if number.significand % 2 = 0 then
    lower ≤ value && value ≤ upper
  else
    lower < value && value < upper

end Binary64

end PacketExpr
