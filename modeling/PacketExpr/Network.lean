import PacketExpr.Text.Hex

/-!
# Networks

A network is an address together with the number of its leading bits that make out the network; the
other bits of the address may be anything.  `Network.netmask` has exactly the leading bits set.

The text of a network is an address, a slash and the number of leading bits.  An address of four
bytes is written as four decimal numbers, one of sixteen bytes as eight hexadecimal groups.  Two
colons stand for the zero groups that are left out, and the last two groups may be written as an
address of four bytes.

Networks stand for those of the library ipnet.  It is assumed of the library that the number of
leading bits of a network is at most that of its address, that the netmask has exactly these bits
set, that the bytes of an address are in network order, and that it reads the texts described above:
an address of four bytes is tried first, a number of it has up to three digits, zeros in front
allowed, and nothing may stand behind the number of leading bits.
-/

namespace PacketExpr

inductive AddressFamily where
  | v4
  | v6
deriving DecidableEq

namespace AddressFamily

def size : AddressFamily → Nat
  | v4 => 4
  | v6 => 16

end AddressFamily

/-- An address and the number of its leading bits that make out the network. -/
structure Network where
  family : AddressFamily
  address : Bytes
  leadingBits : Nat
  length_address : address.length = family.size
  leadingBits_le : leadingBits ≤ 8 * family.size
deriving DecidableEq

/-- The byte in which so many leading bits are set, at most all of them. -/
def leadingBitsByte (bits : Nat) : UInt8 :=
  if bits = 0 then 0 else 0xFF <<< UInt8.ofNat (8 - min bits 8)

namespace Network

/-- The network with these parts, if they go together. -/
def ofParts? (family : AddressFamily) (address : Bytes) (leadingBits : Nat) : Option Network :=
  if sizes : address.length = family.size ∧ leadingBits ≤ 8 * family.size then
    some ⟨family, address, leadingBits, sizes.1, sizes.2⟩
  else
    none

/-- The bytes in which the leading bits of the network are set and all others are clear. -/
def netmask (network : Network) : Bytes :=
  (List.range network.family.size).map fun position =>
    leadingBitsByte (network.leadingBits - 8 * position)

/-- The characters behind a character that has to come next. -/
def expect? (expected : Char) : List Char → Option (List Char)
  | [] => none
  | c :: rest => if c = expected then some rest else none

def decimalValue? (c : Char) : Option Nat := (Hex.value? c).filter (· < 10)

/-- Reads all the digits that come next as a number below a bound; there have to be between one and
`maxDigits` of them. -/
def readNumber? (value? : Char → Option Nat) (base maxDigits bound : Nat) (chars : List Char) :
    Option (Nat × List Char) :=
  let digits := chars.takeWhile fun c => (value? c).isSome
  let number := digits.foldl (fun number c => number * base + (value? c).getD 0) 0
  if digits.isEmpty ∨ maxDigits < digits.length ∨ bound ≤ number then
    none
  else
    some (number, chars.drop digits.length)

def readDecimal? (maxDigits bound : Nat) (chars : List Char) : Option (Nat × List Char) :=
  readNumber? decimalValue? 10 maxDigits bound chars

/-- Reads one of the four numbers of an address of four bytes. -/
def readByte? (chars : List Char) : Option (UInt8 × List Char) :=
  (readDecimal? 3 256 chars).map fun (number, rest) => (UInt8.ofNat number, rest)

def readV4? (chars : List Char) : Option (Bytes × List Char) := do
  let (first, chars) ← readByte? chars
  let (second, chars) ← expect? '.' chars >>= readByte?
  let (third, chars) ← expect? '.' chars >>= readByte?
  let (fourth, chars) ← expect? '.' chars >>= readByte?
  return ([first, second, third, fourth], chars)

/-- Reads the two bytes of a hexadecimal group. -/
def readGroup? (chars : List Char) : Option (Bytes × List Char) :=
  (readNumber? Hex.value? 16 4 0x10000 chars).map fun (number, rest) =>
    (Bytes.ofUInt16 (UInt16.ofNat number), rest)

/-- What a run of groups gives: their bytes, whether the last of them were an address of four bytes,
and the characters that follow. -/
structure Groups where
  bytes : Bytes
  endsInV4 : Bool
  rest : List Char

/-- Reads as many groups as there are, up to a number of them; a colon precedes each group but the
first of the run. -/
def readGroups (isFirst : Bool) : (limit : Nat) → List Char → Groups
  | 0, chars => ⟨[], false, chars⟩
  | limit + 1, chars =>
    match if isFirst then some chars else expect? ':' chars with
    | none => ⟨[], false, chars⟩
    | some start =>
      match if limit = 0 then none else readV4? start with
      | some (address, rest) => ⟨address, true, rest⟩
      | none =>
        match readGroup? start with
        | none => ⟨[], false, chars⟩
        | some (group, rest) =>
          let others := readGroups false limit rest
          ⟨group ++ others.bytes, others.endsInV4, others.rest⟩

/-- Reads an address of sixteen bytes.  Groups can be left out only behind hexadecimal groups. -/
def readV6? (chars : List Char) : Option (Bytes × List Char) :=
  let front := readGroups true 8 chars
  if front.bytes.length = 16 then
    some (front.bytes, front.rest)
  else if front.endsInV4 then
    none
  else do
    let start ← expect? ':' front.rest >>= expect? ':'
    let back := readGroups true (8 - front.bytes.length / 2) start
    let missing := 16 - (front.bytes.length + back.bytes.length)
    return (front.bytes ++ List.replicate missing 0 ++ back.bytes, back.rest)

/-- Reads the number of leading bits, with which the text has to end. -/
def readLeadingBits? (maxDigits bound : Nat) (chars : List Char) : Option Nat := do
  let (number, rest) ← expect? '/' chars >>= readDecimal? maxDigits bound
  if rest.isEmpty then some number else none

def ofText? (text : String) : Option Network :=
  match readV4? text.toList with
  | some (address, rest) => do ofParts? .v4 address (← readLeadingBits? 2 33 rest)
  | none => do
    let (address, rest) ← readV6? text.toList
    ofParts? .v6 address (← readLeadingBits? 3 129 rest)

end Network

end PacketExpr
