import PacketExpr.Json.Basic

/-!
# JSON numbers

A number without fraction and exponent that fits into 64 bits is an integer.  Every other number is
a floating-point number: minus zero, integers that are too large, and all numbers with a fraction or
an exponent.

A floating-point number is read in steps that each round.  The digits are collected as long as they
make a number of 64 bits, and the digits behind those only count for the power of ten; the collected
number is rounded, and then multiplied with the power of ten or divided by it.  A number that is too
large for the format is no JSON.  These steps are those of the library serde_json, of which they are
assumed; they only show in the description of a number that is not looked for.
-/

namespace PacketExpr

/-- A number in a text. -/
inductive JsonNumber where
  | natural (value : UInt64)
  /-- A negative integer that fits into 64 bits with its sign. -/
  | negative (value : Int)
  | float (negative : Bool) (magnitude : Binary64)
deriving DecidableEq

namespace JsonNumber

/-- How an error text shows the number. -/
def toFound : JsonNumber → JsonFound
  | natural value => .integer value.toNat
  | negative value => .integer value
  | float isNegative magnitude => .float isNegative magnitude

end JsonNumber

namespace Json

/-- The first number that does not fit into 64 bits. -/
def wordBound : Nat := 0x10000000000000000

/-- The largest power of ten, by its exponent, that a scaling takes in one step. -/
def maxPower : Nat := 308

def isDigit (c : Char) : Bool := '0' ≤ c && c ≤ '9'

def digitValue (c : Char) : Nat := c.toNat - '0'.toNat

/-- Appends digits to a number as long as it fits into 64 bits; gives also the digits left over. -/
def appendDigits (value : Nat) : List Char → Nat × List Char
  | [] => (value, [])
  | c :: digits =>
    let longer := value * 10 + digitValue c
    if longer < wordBound then appendDigits longer digits else (value, c :: digits)

/-- A power of ten, rounded. -/
def powerOfTen (exponent : Nat) : Binary64 :=
  (Binary64.ofRat? ((10 : Rat) ^ (exponent : Int))).getD Binary64.zero

/-- A number times a power of ten, divided by the largest power repeatedly if the power is smaller
than its inverse; none if the result is too large. -/
def scale? (number : Binary64) (exponent : Int) : Option Binary64 :=
  if exponent < -(maxPower : Int) then
    if number.significand = 0 then
      some number
    else
      match number.div? (powerOfTen maxPower) with
      | some smaller => scale? smaller (exponent + maxPower)
      | none => none
  else if exponent < 0 then
    number.div? (powerOfTen exponent.natAbs)
  else if exponent ≤ maxPower then
    number.mul? (powerOfTen exponent.natAbs)
  else if number.significand = 0 then
    some number
  else
    none
termination_by (-exponent).toNat
decreasing_by simp only [maxPower] at *; omega

/-- Splits off the digits at the front, of which there has to be one. -/
def readDigits (chars : List Char) : Except JsonError (List Char × List Char) :=
  match chars with
  | [] => .error .unexpectedEnd
  | c :: _ =>
    if isDigit c then
      .ok (chars.takeWhile isDigit, chars.dropWhile isDigit)
    else
      .error .malformed

/-- Reads the digits before the point, which begin with zero only if that is all. -/
def readIntegerDigits (chars : List Char) : Except JsonError (List Char × List Char) := do
  let (digits, rest) ← readDigits chars
  match digits with
  | '0' :: _ :: _ => .error .malformed
  | _ => .ok (digits, rest)

def readFraction : List Char → Except JsonError (Option (List Char) × List Char)
  | '.' :: rest => do
    let (digits, behind) ← readDigits rest
    return (some digits, behind)
  | chars => .ok (none, chars)

/-- The number that decimal digits denote. -/
def digitsValue (digits : List Char) : Nat :=
  digits.foldl (fun value c => value * 10 + digitValue c) 0

/-- Reads what follows the letter of an exponent. -/
def readPower (chars : List Char) : Except JsonError (Int × List Char) := do
  let (sign, unsigned) : Int × List Char := match chars with
    | '+' :: rest => (1, rest)
    | '-' :: rest => (-1, rest)
    | _ => (1, chars)
  let (digits, rest) ← readDigits unsigned
  return (sign * digitsValue digits, rest)

def readExponent : List Char → Except JsonError (Option Int × List Char)
  | 'e' :: rest | 'E' :: rest => do
    let (exponent, behind) ← readPower rest
    return (some exponent, behind)
  | chars => .ok (none, chars)

/-- The floating-point number with the given parts. -/
def floatOfParts (negative : Bool) (digits fraction : List Char) (exponent : Int) :
    Except JsonError JsonNumber :=
  let (whole, skipped) := appendDigits 0 digits
  let (significand, dropped) := appendDigits whole fraction
  let scaling := exponent + skipped.length - (fraction.length - dropped.length : Nat)
  match (Binary64.ofRat? significand).bind (scale? · scaling) with
  | some magnitude => .ok (.float negative magnitude)
  | none => .error .malformed

/-- The number with the given sign and digits, without fraction and exponent. -/
def numberOfDigits (negative : Bool) (digits : List Char) : Except JsonError JsonNumber :=
  let value := digitsValue digits
  if negative ∧ 0 < value ∧ value ≤ wordBound / 2 then
    .ok (.negative (-(value : Int)))
  else if ¬ negative ∧ value < wordBound then
    .ok (.natural (UInt64.ofNat value))
  else
    floatOfParts negative digits [] 0

def readUnsigned (negative : Bool) (chars : List Char) :
    Except JsonError (JsonNumber × List Char) := do
  let (digits, behindDigits) ← readIntegerDigits chars
  let (fraction?, behindFraction) ← readFraction behindDigits
  let (exponent?, rest) ← readExponent behindFraction
  let number ← match fraction?, exponent? with
    | none, none => numberOfDigits negative digits
    | _, _ => floatOfParts negative digits (fraction?.getD []) (exponent?.getD 0)
  return (number, rest)

def startsNumber (c : Char) : Bool := c == '-' || isDigit c

def readNumber : List Char → Except JsonError (JsonNumber × List Char)
  | '-' :: rest => readUnsigned true rest
  | chars => readUnsigned false chars

end Json

end PacketExpr
