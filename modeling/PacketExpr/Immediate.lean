import PacketExpr.Attribute.Table
import PacketExpr.Attribute.Writer

/-!
# Immediate values

An immediate value is a string of 1 to 255 bytes that an expression carries with it.  It is kept in
the form in which a register file would hold it: as words, a partial last word being padded with
zero bytes and every word behind it being zero.  So two immediates are equal if and only if their
bytes are, and an immediate is zero if and only if all of its words are.

In a message an immediate is a nested attribute.  The same nesting level could hold a verdict, which
is no value.
-/

namespace PacketExpr

/-- Why a nested attribute does not give an immediate value. -/
inductive ImmediateError where
  /-- The payload is no proper stream of attributes. -/
  | stream (error : AttributeError)
  /-- There is a verdict where a value is needed. -/
  | verdict
  /-- There is neither a value nor a verdict. -/
  | missing
  /-- The value has no bytes. -/
  | empty
  /-- The value has not the number of bytes that is needed. -/
  | length (expected found : Nat)
deriving DecidableEq

namespace ImmediateError

def message : ImmediateError → String
  | stream error => error.message
  | verdict => "data holds a verdict instead of a value"
  | missing => "data holds no value"
  | empty => "value is empty"
  | length expected found => s!"value is {found} bytes long, expected {expected}"

end ImmediateError

/-- A byte string of 1 to 255 bytes, packed into words. -/
structure Immediate where
  words : Vector UInt32 64
  size : Nat
  size_pos : 0 < size
  size_le : size ≤ 255
deriving DecidableEq

namespace Immediate

def maxSize : Nat := 255

def valueKind : Nat := 1

def verdictKind : Nat := 2

/-- The attributes that may be nested where an immediate is expected. -/
def schema : Schema := #[.unspecified, .binary maxSize, .nested]

/-- Packs a byte string; none if it is empty or too long. -/
def ofBytes? (bytes : Bytes) : Option Immediate :=
  if bounds : 0 < bytes.length ∧ bytes.length ≤ maxSize then
    some {
      words := Vector.ofFn fun position => Bytes.wordAt bytes position
      size := bytes.length
      size_pos := bounds.1
      size_le := bounds.2 }
  else
    none

/-- The four bytes of a word as an immediate. -/
def ofWord (word : UInt32) : Immediate where
  words := Vector.ofFn fun position => if position.val = 0 then word else 0
  size := 4
  size_pos := by decide
  size_le := by decide

/-- The word at a position; there are 64 of them, whatever the size. -/
def word? (value : Immediate) (position : Nat) : Option UInt32 := value.words[position]?

/-- The word at a position, zero beyond the last one. -/
def word (value : Immediate) (position : Nat) : UInt32 := (value.word? position).getD 0

def bytes (value : Immediate) : Bytes := (Bytes.ofWords value.words.toList).take value.size

def isZero (value : Immediate) : Bool := value.words.all (· == 0)

/-- Whether the value has no bytes, which never happens. -/
def isEmpty (value : Immediate) : Bool := value.size == 0

/-- Reads the payload of a nested attribute. -/
def decode (nested : Bytes) : Except ImmediateError Immediate := do
  let table ← (AttributeTable.parse schema nested).mapError .stream
  match table.get? valueKind with
  | some bytes =>
    match ofBytes? bytes with
    | some value => .ok value
    | none => .error .empty
  | none => .error (if table.has verdictKind then .verdict else .missing)

/-- Reads the payload of a nested attribute that has to hold exactly `size` bytes. -/
def decodeExact (nested : Bytes) (size : Nat) : Except ImmediateError Immediate := do
  let value ← decode nested
  if value.size = size then .ok value else .error (.length size value.size)

/-- Writes a byte string as a nested attribute that holds it as a value; whether the bytes make an
immediate is not asked. -/
def putBytes (type : UInt16) (bytes : Bytes) : Write Unit :=
  Write.putNest type (Write.put (UInt16.ofNat valueKind) bytes)

/-- Writes the value as a nested attribute. -/
def put (value : Immediate) (type : UInt16) : Write Unit := putBytes type value.bytes

end Immediate

end PacketExpr
