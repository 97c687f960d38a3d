import PacketExpr.Immediate
import PacketExpr.Register.File

/-!
# Bitwise expressions

A bitwise expression computes a value of up to 255 bytes from a source register into a destination
register.  It either masks the value and flips bits of it, where mask and flipped bits are operands
of the same length, or shifts the value by less than one word.  A value that spans several words is
one big-endian number.
-/

namespace PacketExpr

/-- A mask or the bits to flip: given with the expression, or held in a register. -/
inductive Operand where
  | immediate (value : Immediate)
  | register (place : Register)
deriving DecidableEq

namespace Operand

/-- The register that has to be read for the operand. -/
def register? : Operand → Option Register
  | immediate _ => none
  | register place => some place

def word (operand : Operand) (file : RegisterFile) (offset : Nat) : UInt32 :=
  match operand with
  | immediate value => value.word offset
  | register place => file.word (place.word + offset)

end Operand

/-- The operations under which the transforms are known in messages. -/
inductive Operation where
  | boolean
  | shiftLeft
  | shiftRight
deriving DecidableEq

namespace Operation

def number : Operation → UInt32
  | boolean => 0
  | shiftLeft => 1
  | shiftRight => 2

def ofNumber? (number : UInt32) : Option Operation :=
  if number = 0 then some boolean
  else if number = 1 then some shiftLeft
  else if number = 2 then some shiftRight
  else none

def name : Operation → String
  | boolean => "bool"
  | shiftLeft => "lshift"
  | shiftRight => "rshift"

theorem ofNumber?_number (operation : Operation) : ofNumber? operation.number = some operation := by
  cases operation <;> rfl

end Operation

/-- What an expression does to the value. -/
inductive Transform where
  /-- Keeps the bits of the mask, then flips those of `xor`. -/
  | boolean (mask xor : Operand)
  /-- Shifts toward the first byte. -/
  | shiftLeft (amount : Nat)
  /-- Shifts toward the last byte. -/
  | shiftRight (amount : Nat)
deriving DecidableEq

namespace Transform

def operation : Transform → Operation
  | boolean .. => .boolean
  | shiftLeft _ => .shiftLeft
  | shiftRight _ => .shiftRight

def registers : Transform → List Register
  | boolean mask xor => [mask, xor].filterMap Operand.register?
  | shiftLeft _ | shiftRight _ => []

end Transform

/-- A transform of `length` bytes from the source register into the destination register. -/
structure Bitwise where
  source : Register
  destination : Register
  length : Nat
  transform : Transform
deriving DecidableEq

namespace Bitwise

/-- The name of bitwise expressions in envelopes and records. -/
def name : String := "bitwise"

/-- Largest number of bytes that an expression works on. -/
def maxLength : Nat := 255

/-- Every register that the expression reads or writes. -/
def registers (expression : Bitwise) : List Register :=
  expression.source :: expression.destination :: expression.transform.registers

/-- Number of words that a register file needs to hold every register of the expression. -/
def span (expression : Bitwise) : Nat :=
  (expression.registers.map Register.word).foldl max 0 + wordCount expression.length

def fits (expression : Bitwise) (file : RegisterFile) : Bool :=
  expression.span ≤ file.capacity

end Bitwise

end PacketExpr
