import PacketExpr.Bytes

/-!
# Attributes

A message is a stream of attributes.  Each attribute has a header of four bytes, which gives its
length (header included, padding excluded) and its type, and a payload that is padded to a multiple
of four bytes.  The payload may itself be such a stream: then the attribute is nested.

`Attribute.encode` gives the canonical bytes of an attribute.  `Attribute.read?` takes one attribute
off the front of a byte string; it accepts padding of any content, and lets the padding of the last
attribute be missing.  `AttributeStream.ofBytes` repeats it to the end of the bytes, or to the first
place where no attribute can be read.
-/

namespace PacketExpr

inductive AttributeError where
  /-- The bytes end before the attribute that they announce. -/
  | truncated
  /-- The payload of an attribute of this kind does not have the shape that is asked of it. -/
  | invalid (kind : Nat)
  /-- The attribute does not fit into its length field or into the writer's budget. -/
  | noSpace
deriving DecidableEq

namespace AttributeError

def message : AttributeError → String
  | truncated => "attribute buffer is truncated"
  | invalid kind => s!"attribute {kind} has an invalid payload"
  | noSpace => "no space left in attribute buffer"

end AttributeError

/-- One attribute of a message.  The type may carry two flags in its highest bits. -/
structure Attribute where
  type : UInt16
  payload : Bytes
deriving DecidableEq

namespace Attribute

/-- Size of the header that precedes every payload. -/
def headerSize : Nat := 4

/-- Largest size that the length field of a header can hold. -/
def maxSize : Nat := 65535

/-- The flag that marks a type as nested. -/
def nestedFlag : UInt16 := 0x8000

def size (attr : Attribute) : Nat := headerSize + attr.payload.length

/-- The type without its two flags, which tells what the attribute stands for. -/
def kind (attr : Attribute) : Nat := attr.type.toNat % 0x4000

/-- The header for a payload of `length - headerSize` bytes. -/
def encodeHeader (length : Nat) (type : UInt16) : Bytes :=
  Bytes.ofUInt16 (UInt16.ofNat length) ++ Bytes.ofUInt16 type

def encode (attr : Attribute) : Bytes :=
  encodeHeader attr.size attr.type ++ attr.payload
    ++ List.replicate (paddedSize attr.size - attr.size) 0

@[simp] theorem length_encodeHeader (length : Nat) (type : UInt16) :
    (encodeHeader length type).length = headerSize := rfl

theorem encodeHeader_wholeWords (length : Nat) (type : UInt16) :
    (encodeHeader length type).length % 4 = 0 := by
  simp [headerSize]

@[simp] theorem length_encode (attr : Attribute) :
    attr.encode.length = paddedSize attr.size := by
  have fits := le_paddedSize attr.size
  simp only [encode, List.length_append, length_encodeHeader, List.length_replicate]
  simp only [size] at fits ⊢
  omega

theorem encode_wholeWords (attr : Attribute) : attr.encode.length % 4 = 0 := by
  rw [length_encode]
  exact paddedSize_mod_four _

theorem encode_eq_padded (attr : Attribute) :
    attr.encode = (encodeHeader attr.size attr.type ++ attr.payload).padded := by
  have length : (encodeHeader attr.size attr.type ++ attr.payload).length = attr.size :=
    List.length_append
  rw [encode, Bytes.padded, length]

/-- Reads the attribute at the front of the bytes; gives also what follows its padding.  There is
none if the header is not complete, or if its length is shorter than the header or longer than the
bytes. -/
def read? : Bytes → Option (Attribute × Bytes)
  | lengthHigh :: lengthLow :: typeHigh :: typeLow :: rest =>
    let length := (Bytes.toUInt16 lengthHigh lengthLow).toNat
    let payload := rest.take (length - headerSize)
    if headerSize ≤ length ∧ payload.length = length - headerSize then
      some (⟨Bytes.toUInt16 typeHigh typeLow, payload⟩, rest.drop (paddedSize length - headerSize))
    else
      none
  | _ => none

/-- Reading takes at least the header, so repeating it comes to an end. -/
theorem length_lt_of_read? {bytes rest : Bytes} {attr : Attribute}
    (reads : read? bytes = some (attr, rest)) : rest.length < bytes.length := by
  unfold read? at reads
  split at reads
  · dsimp only at reads
    split at reads
    · simp only [Option.some.injEq, Prod.mk.injEq] at reads
      rw [← reads.2]
      simp only [List.length_drop, List.length_cons]
      omega
    · contradiction
  · contradiction

/-- Reading takes off the padding of an attribute, or as much of it as there is. -/
theorem read?_append {attr : Attribute} (fits : attr.size ≤ maxSize) (behind : Bytes) :
    read? (encodeHeader attr.size attr.type ++ attr.payload ++ behind) =
      some (attr, behind.drop (paddedSize attr.size - attr.size)) := by
  have length : (UInt16.ofNat attr.size).toNat = attr.size := by
    rw [UInt16.toNat_ofNat']
    exact Nat.mod_eq_of_lt (Nat.lt_succ_of_le fits)
  have payload : attr.size - headerSize = attr.payload.length := Nat.add_sub_cancel_left ..
  have padding : paddedSize attr.size - headerSize =
      attr.payload.length + (paddedSize attr.size - attr.size) := by
    have room := le_paddedSize attr.size
    simp only [size] at room ⊢
    omega
  simp only [encodeHeader, Bytes.ofUInt16, List.cons_append, List.nil_append, read?,
    Bytes.toUInt16_ofUInt16]
  simp only [length, payload, padding]
  rw [List.take_left, List.drop_length_add_append]
  exact if_pos ⟨Nat.le_add_right .., rfl⟩

/-- Reading gives back an attribute that was written, whatever follows it. -/
theorem read?_encode {attr : Attribute} (fits : attr.size ≤ maxSize) (rest : Bytes) :
    read? (attr.encode ++ rest) = some (attr, rest) := by
  rw [encode, List.append_assoc, read?_append fits, List.drop_left' List.length_replicate]

end Attribute

/-- What a byte string holds as a message: its attributes in order, up to the end of the bytes or
to the first place where no attribute can be read. -/
structure AttributeStream where
  attributes : List Attribute
  /-- Whether the attributes reach to the end of the bytes. -/
  complete : Bool
deriving DecidableEq

namespace AttributeStream

def ofBytes : Bytes → AttributeStream
  | [] => ⟨[], true⟩
  | byte :: bytes =>
    match _ : Attribute.read? (byte :: bytes) with
    | none => ⟨[], false⟩
    | some (attr, rest) =>
      let stream := ofBytes rest
      ⟨attr :: stream.attributes, stream.complete⟩
termination_by bytes => bytes.length
decreasing_by exact Attribute.length_lt_of_read? (by assumption)

/-- The stream of bytes from which an attribute can be read is that of what follows it, behind the
attribute. -/
theorem ofBytes_of_read? {bytes rest : Bytes} {attr : Attribute}
    (reads : Attribute.read? bytes = some (attr, rest)) :
    ofBytes bytes = ⟨attr :: (ofBytes rest).attributes, (ofBytes rest).complete⟩ := by
  cases bytes with
  | nil => contradiction
  | cons byte bytes =>
    rw [ofBytes]
    split <;> simp_all

/-- The stream ends, without being complete, where bytes are left that no attribute can be read
from. -/
theorem ofBytes_of_unreadable {bytes : Bytes} (nonempty : bytes ≠ [])
    (unreadable : Attribute.read? bytes = none) : ofBytes bytes = ⟨[], false⟩ := by
  cases bytes with
  | nil => contradiction
  | cons byte bytes =>
    rw [ofBytes]
    split <;> simp_all

end AttributeStream

end PacketExpr
