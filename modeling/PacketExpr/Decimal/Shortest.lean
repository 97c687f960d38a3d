import PacketExpr.Decimal.Binary64

/-!
# Shortest decimal text

A floating-point number is written with the fewest decimal digits that read back as the same number;
of the texts with so many digits it is the nearest to the number.  `Decimal.shortest` finds the
digits, and a `DecimalStyle` says how they are laid out.
-/

namespace PacketExpr

/-- The number `digits` times ten to the power `exponent`. -/
structure Decimal where
  digits : Nat
  exponent : Int
deriving DecidableEq

namespace Decimal

/-- The value of the number. -/
def toRat (number : Decimal) : Rat := number.digits * (10 : Rat) ^ number.exponent

/-- Number of decimal digits of a natural number. -/
def digitCount (number : Nat) : Nat := (Nat.toDigits 10 number).length

/-- The power of ten at or below a positive number, by its exponent. -/
def decade (value : Rat) : Int :=
  if 1 ≤ value then
    (digitCount value.floor.toNat : Int) - 1
  else
    -(digitCount ((1 / value).ceil.toNat - 1) : Int)

/-- The next larger decimal of `count` digits; if all digits are nines it is a power of ten. -/
def next (number : Decimal) (count : Nat) : Decimal :=
  if digitCount (number.digits + 1) ≤ count then
    ⟨number.digits + 1, number.exponent⟩
  else
    ⟨(number.digits + 1) / 10, number.exponent + 1⟩

/-- The decimal of `count` digits that reads back as the number and is the nearest to it, if there
is one: it is next to the number among the decimals with so many digits. -/
def ofDigitCount? (number : Binary64) (count : Nat) : Option Decimal :=
  let value := number.toRat
  let exponent := decade value - count + 1
  let below : Decimal := ⟨(value / (10 : Rat) ^ exponent).floor.toNat, exponent⟩
  let above := below.next count
  match number.isRoundingOf below.toRat, number.isRoundingOf above.toRat with
  | true, true =>
    let downward := value - below.toRat
    let upward := above.toRat - value
    if downward < upward ∨ (downward = upward ∧ below.digits % 2 = 0) then
      some below
    else
      some above
  | true, false => some below
  | false, true => some above
  | false, false => none

/-- The decimal with the fewest digits that reads back as the number.  Seventeen digits always do.
-/
def shortest (number : Binary64) : Decimal :=
  if number.significand = 0 then
    ⟨0, 0⟩
  else
    ((List.range 17).findSome? fun index => ofDigitCount? number (index + 1)).getD ⟨0, 0⟩

end Decimal

/-- How decimal digits are laid out: positional between two powers of ten, and otherwise with one
digit before the point and the power of ten behind the letter e. -/
structure DecimalStyle where
  minPositional : Int
  maxPositional : Int

namespace DecimalStyle

/-- The digits with the point in its place and at least one digit on both sides of it. -/
def positional (digits : List Char) (exponent : Int) : List Char :=
  if 0 ≤ exponent then
    digits ++ List.replicate exponent.toNat '0' ++ ['.', '0']
  else
    let decimals := (-exponent).toNat
    let padded := List.replicate (decimals + 1 - digits.length) '0' ++ digits
    padded.take (padded.length - decimals) ++ ['.'] ++ padded.drop (padded.length - decimals)

/-- One digit, the others behind the point, and the power of ten with its sign. -/
def scientific (digits : List Char) (power : Int) : List Char :=
  let decimals := digits.drop 1
  digits.take 1 ++ (if decimals.isEmpty then [] else '.' :: decimals)
    ++ ['e', if power < 0 then '-' else '+'] ++ Nat.toDigits 10 power.natAbs

/-- The text of a decimal number. -/
def render (style : DecimalStyle) (number : Decimal) : List Char :=
  let digits := Nat.toDigits 10 number.digits
  let power := number.exponent + (digits.length : Int) - 1
  if style.minPositional ≤ power ∧ power ≤ style.maxPositional then
    positional digits number.exponent
  else
    scientific digits power

end DecimalStyle

end PacketExpr
