import PacketExpr.Attribute.Basic

/-!
# Writing attributes

A writer collects attributes up to a budget of bytes.  What is written is a `Write` action: it ends
with the writer it leaves behind, also when it fails, so a failed sequence of writes shows what had
been written before.  Each single write either succeeds or leaves the writer as it was.

An attribute is padded by padding all that has been written so far.  A nested attribute is opened,
its payload is written by further writes, and closing it puts the length of the payload into its
header.  Until then the length in the header is zero.
-/

namespace PacketExpr

/-- The bytes written so far and the number of bytes that may be written in all. -/
structure Writer where
  bytes : Bytes
  limit : Nat
deriving DecidableEq

/-- A step of writing, which may fail and changes the writer. -/
abbrev Write := EStateM AttributeError Writer

/-- A nested attribute that is still open, by the position of its header. -/
structure Nest where
  start : Nat
deriving DecidableEq

namespace Writer

def blank (limit : Nat) : Writer := ⟨[], limit⟩

/-- Whether an attribute with a payload of `payloadSize` bytes can be added. -/
def hasRoom (writer : Writer) (payloadSize : Nat) : Bool :=
  Attribute.headerSize + payloadSize ≤ Attribute.maxSize
    && writer.bytes.length + paddedSize (Attribute.headerSize + payloadSize) ≤ writer.limit

def append (writer : Writer) (bytes : Bytes) : Writer :=
  { writer with bytes := writer.bytes ++ bytes }

/-- The writer with zero bytes behind all of its bytes up to the end of the last word. -/
def pad (writer : Writer) : Writer := { writer with bytes := writer.bytes.padded }

/-- The writer with the length of the header at `start` replaced. -/
def setLength (writer : Writer) (start length : Nat) : Writer :=
  { writer with
    bytes := writer.bytes.take start ++ Bytes.ofUInt16 (UInt16.ofNat length)
      ++ writer.bytes.drop (start + 2) }

end Writer

namespace Write

def put (type : UInt16) (payload : Bytes) : Write Unit := fun writer =>
  if writer.hasRoom payload.length then
    let header := Attribute.encodeHeader (Attribute.headerSize + payload.length) type
    .ok () (writer.append (header ++ payload)).pad
  else
    .error .noSpace writer

def putWord (type : UInt16) (word : UInt32) : Write Unit := put type (Bytes.ofWord word)

def putText (type : UInt16) (text : String) : Write Unit :=
  put type (text.toUTF8.toList ++ [0])

/-- Opens a nested attribute: what is written until it is closed is its payload. -/
def openNest (type : UInt16) : Write Nest := fun writer =>
  if writer.hasRoom 0 then
    .ok ⟨writer.bytes.length⟩
      (writer.append (Attribute.encodeHeader 0 (type ||| Attribute.nestedFlag)))
  else
    .error .noSpace writer

/-- Closes a nested attribute by putting its length into its header. -/
def closeNest (nest : Nest) : Write Unit := fun writer =>
  let length := writer.bytes.length - nest.start
  if length ≤ Attribute.maxSize then
    .ok () (writer.setLength nest.start length)
  else
    .error .noSpace writer

/-- Writes a nested attribute whose payload is written by `payload`. -/
def putNest (type : UInt16) (payload : Write Unit) : Write Unit := do
  let nest ← openNest type
  payload
  closeNest nest

/-- The bytes that an action writes within a budget. -/
def bytesWithin (limit : Nat) (action : Write Unit) : Except AttributeError Bytes :=
  match action.run (Writer.blank limit) with
  | .ok _ writer => .ok writer.bytes
  | .error error _ => .error error

end Write

end PacketExpr
