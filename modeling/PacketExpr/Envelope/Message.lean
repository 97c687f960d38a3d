import PacketExpr.Config.Basic
import PacketExpr.Event

/-!
# Envelopes

`Envelope.decode` reads an expression from its envelope and `Envelope.dump` writes it into one.
Reading checks the configuration, the stream of attributes, the name and the data, in this order.
Once the name has been looked up the outcome is also logged, by exactly one event: that the name is
not known, that the data were rejected, or that the expression was built.
-/

namespace PacketExpr

namespace Envelope

/-- An envelope whose attributes are in order: the layout to check against, the name of the kind of
expression, and its attributes. -/
structure Opened where
  layout : Layout
  name : String
  data : Bytes
deriving DecidableEq

/-- Opens an envelope. -/
def openMessage (config : Config) (message : Bytes) : Except Error Opened := do
  let layout ← config.layout.mapError .invalidConfig
  let table ← (AttributeTable.parse schema message).mapError .stream
  match ← (table.text? Field.name.kind).mapError .stream with
  | none => .error (.missingField .name)
  | some name =>
    match table.get? Field.data.kind with
    | none => .error (.missingField .data)
    | some data => .ok ⟨layout, name, data⟩

/-- The expression in an opened envelope. -/
def Opened.decode (opened : Opened) : Logged Bitwise :=
  if opened.name ≠ Bitwise.name then
    ⟨.error (.unknownExpression opened.name), [.unknownExpression opened.name]⟩
  else
    match Bitwise.decode opened.layout opened.data with
    | .ok expression => ⟨.ok expression, [.built]⟩
    | .error error => ⟨.error (.bitwise error), [.rejected error]⟩

/-- The expression in an envelope. -/
def decode (config : Config) (message : Bytes) : Logged Bitwise :=
  match openMessage config message with
  | .ok opened => opened.decode
  | .error error => ⟨.error error, []⟩

/-- Writes an envelope whose data are written by `data`. -/
def put (data : Write Unit) : Write Unit := do
  Write.putText Field.name.type Bitwise.name
  Write.putNest Field.data.type data

/-- The message of an expression, within the limit of the configuration. -/
def dump (config : Config) (expression : Bitwise) : Except Error Bytes :=
  (Write.bytesWithin config.dumpLimit.toNat (put expression.put)).mapError .encodingFailure

end Envelope

end PacketExpr
