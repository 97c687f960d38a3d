import PacketExpr.Bitwise.Basic

/-!
# Messages of bitwise expressions

In a message a bitwise expression is a stream of attributes: source, destination and length, the
operation, and either the two operands or the amount of a shift.  An operand has two forms, an
immediate value or a register, of which exactly one is present.

`Bitwise.ofTable` checks the attributes one after the other and reports the first rule that does not
hold.  `Bitwise.put` writes the attributes of an expression, each operand in the form that it has.
-/

namespace PacketExpr

namespace Bitwise

inductive Field where
  | source
  | destination
  | length
  | mask
  | xor
  | operation
  | data
  | maskRegister
  | xorRegister
deriving DecidableEq

namespace Field

def kind : Field → Nat
  | source => 1
  | destination => 2
  | length => 3
  | mask => 4
  | xor => 5
  | operation => 6
  | data => 7
  | maskRegister => 8
  | xorRegister => 9

def type (field : Field) : UInt16 := UInt16.ofNat field.kind

def name : Field → String
  | source => "Sreg"
  | destination => "Dreg"
  | length => "Len"
  | mask => "Mask"
  | xor => "Xor"
  | operation => "Op"
  | data => "Data"
  | maskRegister => "Mreg"
  | xorRegister => "Xreg"

end Field

def schema : Schema :=
  #[.unspecified, .word, .word, .word, .nested, .nested, .word, .nested, .word, .word]

end Bitwise

/-- Why attributes do not make a bitwise expression, or an expression cannot be written. -/
inductive BitwiseError where
  | missingField (field : Bitwise.Field)
  | invalidEncoding (error : ImmediateError)
  | invalidLength (length : UInt32)
  | invalidRegister (error : RegisterError)
  | unsupportedOperation (number : UInt32)
  /-- The field does not go with the rest of the expression, or with the other form of itself. -/
  | conflictingFields (field : Bitwise.Field)
  | invalidShiftAmount (amount : UInt32)
  | encodingFailure (error : AttributeError)
deriving DecidableEq

namespace BitwiseError

def message : BitwiseError → String
  | missingField field => "attribute " ++ field.name ++ " is missing"
  | invalidEncoding error => "invalid encoding: " ++ error.message
  | invalidLength length => s!"length {length} is out of bounds"
  | invalidRegister error => "invalid register: " ++ error.message
  | unsupportedOperation number => s!"bitwise operation {number} is not supported"
  | conflictingFields field =>
    "attribute " ++ field.name ++ " conflicts with the rest of the expression"
  | invalidShiftAmount amount => s!"shift amount {amount} is not below 32"
  | encodingFailure error => "couldn't encode expression: " ++ error.message

end BitwiseError

namespace Bitwise

/-- The word in a field that has to be there. -/
def requireWord (table : AttributeTable) (field : Field) : Except BitwiseError UInt32 :=
  match table.word? field.kind with
  | some word => .ok word
  | none => .error (.missingField field)

/-- The length of an expression, of which a single byte has to be enough. -/
def checkLength (length : UInt32) : Except BitwiseError Nat :=
  if length.toNat ≤ maxLength then .ok length.toNat else .error (.invalidLength length)

/-- The register in which `length` bytes have their place. -/
def checkRegister (layout : Layout) (number : UInt32) (length : Nat) :
    Except BitwiseError Register :=
  (layout.resolveFor number length).mapError .invalidRegister

/-- The operation of an expression, a boolean one unless something else is said. -/
def checkOperation (table : AttributeTable) : Except BitwiseError Operation :=
  match table.word? Field.operation.kind with
  | none => .ok .boolean
  | some number =>
    match Operation.ofNumber? number with
    | some operation => .ok operation
    | none => .error (.unsupportedOperation number)

/-- Checks that an operand is present in exactly one of its two forms. -/
def checkExclusive (table : AttributeTable) (value register : Field) : Except BitwiseError Unit :=
  if table.has value.kind = table.has register.kind then
    .error (.conflictingFields value)
  else
    .ok ()

def checkAbsent (table : AttributeTable) (fields : List Field) : Except BitwiseError Unit :=
  match fields.find? fun field => table.has field.kind with
  | some field => .error (.conflictingFields field)
  | none => .ok ()

/-- Reads an operand of `length` bytes from one of its two fields. -/
def readOperand (layout : Layout) (table : AttributeTable) (length : Nat)
    (value register : Field) : Except BitwiseError Operand :=
  match table.get? value.kind with
  | some nested => do
    let immediate ← (Immediate.decodeExact nested length).mapError .invalidEncoding
    return .immediate immediate
  | none => do
    let number ← requireWord table register
    let register ← checkRegister layout number length
    return .register register

def readBoolean (layout : Layout) (table : AttributeTable) (length : Nat) :
    Except BitwiseError Transform := do
  checkAbsent table [.data]
  checkExclusive table .mask .maskRegister
  checkExclusive table .xor .xorRegister
  let mask ← readOperand layout table length .mask .maskRegister
  let xor ← readOperand layout table length .xor .xorRegister
  return .boolean mask xor

def readAmount (table : AttributeTable) : Except BitwiseError Nat := do
  checkAbsent table [.mask, .xor, .maskRegister, .xorRegister]
  match table.get? Field.data.kind with
  | none => .error (.missingField .data)
  | some nested =>
    let value ← (Immediate.decodeExact nested 4).mapError .invalidEncoding
    let amount := value.word 0
    if amount.toNat < 32 then .ok amount.toNat else .error (.invalidShiftAmount amount)

def readTransform (layout : Layout) (table : AttributeTable) (length : Nat) :
    Operation → Except BitwiseError Transform
  | .boolean => readBoolean layout table length
  | .shiftLeft => Transform.shiftLeft <$> readAmount table
  | .shiftRight => Transform.shiftRight <$> readAmount table

/-- The expression that the attributes of a table make in a register file of the given layout. -/
def ofTable (layout : Layout) (table : AttributeTable) : Except BitwiseError Bitwise := do
  let sourceNumber ← requireWord table .source
  let destinationNumber ← requireWord table .destination
  let length ← checkLength (← requireWord table .length)
  let source ← checkRegister layout sourceNumber length
  let destination ← checkRegister layout destinationNumber length
  let operation ← checkOperation table
  let transform ← readTransform layout table length operation
  return ⟨source, destination, length, transform⟩

/-- The expression that a message makes in a register file of the given layout. -/
def decode (layout : Layout) (message : Bytes) : Except BitwiseError Bitwise := do
  let table ← (AttributeTable.parse schema message).mapError fun error =>
    .invalidEncoding (.stream error)
  ofTable layout table

/-- Writes an operand under the field of its form. -/
def putOperand (operand : Operand) (value register : Field) : Write Unit :=
  match operand with
  | .immediate immediate => immediate.put value.type
  | .register place => Write.putWord register.type place.number

def putTransform : Transform → Write Unit
  | .boolean mask xor => do
    putOperand mask .mask .maskRegister
    putOperand xor .xor .xorRegister
  | .shiftLeft amount | .shiftRight amount =>
    (Immediate.ofWord (UInt32.ofNat amount)).put Field.data.type

def put (expression : Bitwise) : Write Unit := do
  Write.putWord Field.source.type expression.source.number
  Write.putWord Field.destination.type expression.destination.number
  Write.putWord Field.length.type (UInt32.ofNat expression.length)
  Write.putWord Field.operation.type expression.transform.operation.number
  putTransform expression.transform

/-- Writes the attributes of an expression, as a step that fails with an error of expressions. -/
def dump (expression : Bitwise) : EStateM BitwiseError Writer Unit :=
  EStateM.adaptExcept BitwiseError.encodingFailure expression.put

end Bitwise

end PacketExpr
