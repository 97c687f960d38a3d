import PacketExpr.Envelope.Message
import PacketExpr.Network

/-!
# Drafts

A draft lists the attributes of a bitwise expression that is yet to be made.  Nothing in it has been
checked: it can lack attributes, have some that exclude each other, or hold bytes that make no
value.  A draft is encoded as it is, and it is checked when the message that it makes is decoded.
-/

namespace PacketExpr

/-- The attributes for a bitwise expression, registers by number. -/
structure Draft where
  source : UInt32
  destination : UInt32
  length : UInt32
  operation : Option UInt32 := none
  mask : Option Bytes := none
  maskRegister : Option UInt32 := none
  xor : Option Bytes := none
  xorRegister : Option UInt32 := none
  data : Option Bytes := none
deriving DecidableEq

namespace Draft

def shiftLeft (draft : Draft) (amount : UInt32) : Draft :=
  { draft with
    operation := some Operation.shiftLeft.number
    data := some (Bytes.ofWord amount) }

def shiftRight (draft : Draft) (amount : UInt32) : Draft :=
  { draft with
    operation := some Operation.shiftRight.number
    data := some (Bytes.ofWord amount) }

/-- Masks an address in a register, so that the bits of the network are left. -/
def ofNetwork (register : UInt32) (network : Network) : Draft where
  source := register
  destination := register
  length := UInt32.ofNat network.netmask.length
  mask := some network.netmask
  xor := some (List.replicate network.netmask.length 0)

/-- Writes a field if it has a value. -/
def putOptional {α : Type} (put : UInt16 → α → Write Unit) (field : Bitwise.Field) :
    Option α → Write Unit
  | some value => put field.type value
  | none => pure ()

def put (draft : Draft) : Write Unit := do
  Write.putWord Bitwise.Field.source.type draft.source
  Write.putWord Bitwise.Field.destination.type draft.destination
  Write.putWord Bitwise.Field.length.type draft.length
  putOptional Write.putWord .operation draft.operation
  putOptional Immediate.putBytes .mask draft.mask
  putOptional Write.putWord .maskRegister draft.maskRegister
  putOptional Immediate.putBytes .xor draft.xor
  putOptional Write.putWord .xorRegister draft.xorRegister
  putOptional Immediate.putBytes .data draft.data

/-- The number of bytes that an encoded draft may have. -/
def encodeLimit : Nat := Attribute.maxSize

/-- The attributes of the draft as a message. -/
def encode (draft : Draft) : Except Error Bytes :=
  (Write.bytesWithin encodeLimit draft.put).mapError .stream

/-- The attributes of the draft in an envelope. -/
def encodeEnvelope (draft : Draft) : Except Error Bytes :=
  (Write.bytesWithin encodeLimit (Envelope.put draft.put)).mapError .stream

/-- The expression that the draft makes in a register file of the given layout. -/
def build (draft : Draft) (layout : Layout) : Except Error Bitwise := do
  let message ← draft.encode
  (Bitwise.decode layout message).mapError .bitwise

/-- The expression that the draft makes in an envelope. -/
def buildEnvelope (draft : Draft) (config : Config) : Logged Bitwise :=
  match draft.encodeEnvelope with
  | .ok message => Envelope.decode config message
  | .error error => ⟨.error error, []⟩

end Draft

end PacketExpr
