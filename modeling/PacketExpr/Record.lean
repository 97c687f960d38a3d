import PacketExpr.Bitwise.Message
import PacketExpr.Json.String

/-!
# Records

A record describes an expression for a log: the operation, the numbers of the registers, the length,
and either the two operands or the amount of a shift.  It is written as one JSON object whose keys
have a fixed order; keys that do not apply are left out.  The object is printed as the library
serde_json does, without blanks and with the texts in it escaped; the time is any text.
-/

namespace PacketExpr

inductive OperandRecord where
  | immediate (bytes : Bytes)
  | register (number : UInt32)
deriving DecidableEq

/-- What a record says about an expression. -/
structure Record where
  operation : Operation
  source : UInt32
  destination : UInt32
  length : Nat
  mask : Option OperandRecord
  xor : Option OperandRecord
  amount : Option Nat
deriving DecidableEq

namespace OperandRecord

def ofOperand : Operand → OperandRecord
  | .immediate value => immediate value.bytes
  | .register place => register place.number

def render : OperandRecord → String
  | immediate bytes => "\x7b\"immediate\":\"" ++ Hex.ofBytes bytes ++ "\"\x7d"
  | register number => "\x7b\"register\":" ++ toString number ++ "\x7d"

end OperandRecord

namespace Record

def ofExpression (expression : Bitwise) : Record :=
  let common : Record := {
    operation := expression.transform.operation
    source := expression.source.number
    destination := expression.destination.number
    length := expression.length
    mask := none
    xor := none
    amount := none }
  match expression.transform with
  | .boolean mask xor =>
    { common with
      mask := some (OperandRecord.ofOperand mask)
      xor := some (OperandRecord.ofOperand xor) }
  | .shiftLeft amount | .shiftRight amount => { common with amount := some amount }

/-- A key with the JSON text of its value, if there is one. -/
def member (key : String) (value : Option String) : List String :=
  match value with
  | some value => ["\"" ++ key ++ "\":" ++ value]
  | none => []

/-- The JSON text of a record that was made at the given time. -/
def render (record : Record) (timestamp : String) : String :=
  "\x7b" ++ String.intercalate ","
    (member "expr" (Json.string Bitwise.name)
      ++ member "op" (Json.string record.operation.name)
      ++ member "sreg" (toString record.source)
      ++ member "dreg" (toString record.destination)
      ++ member "len" (toString record.length)
      ++ member "mask" (record.mask.map OperandRecord.render)
      ++ member "xor" (record.xor.map OperandRecord.render)
      ++ member "shift" (record.amount.map toString)
      ++ member "timestamp" (Json.string timestamp)) ++ "\x7d"

end Record

end PacketExpr
