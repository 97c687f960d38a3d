import PacketExpr.Bytes

/-!
# Hexadecimal text

Bytes are shown as two lower-case hexadecimal digits each.  Where hexadecimal digits are read, both
cases count.
-/

namespace PacketExpr

namespace Hex

/-- The lower-case hexadecimal digit of a number below 16. -/
def digit (number : Nat) : Char :=
  if number < 10 then Char.ofNat ('0'.toNat + number) else Char.ofNat ('a'.toNat + (number - 10))

def value? (c : Char) : Option Nat :=
  if '0' ≤ c ∧ c ≤ '9' then some (c.toNat - '0'.toNat)
  else if 'a' ≤ c ∧ c ≤ 'f' then some (c.toNat - 'a'.toNat + 10)
  else if 'A' ≤ c ∧ c ≤ 'F' then some (c.toNat - 'A'.toNat + 10)
  else none

def digits (bytes : Bytes) : List Char :=
  bytes.flatMap fun byte => [digit (byte.toNat / 16), digit (byte.toNat % 16)]

/-- The text that shows a byte string. -/
def ofBytes (bytes : Bytes) : String := String.ofList (digits bytes)

end Hex

end PacketExpr
