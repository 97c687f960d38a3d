import PacketExpr.Proofs.Bitwise.Fields
import PacketExpr.Proofs.Bitwise.Placement

/-!
# The encoding of an expression

`Bitwise.put` writes an expression attribute by attribute, and for an immediate value it opens and
closes a nested attribute on the way.  All in all it writes the attributes of
`Bitwise.attributes`, one after the other, or fails for lack of room.
-/

namespace PacketExpr

namespace Bitwise

/-- The attribute of an operand, under the field of its form. -/
def operandAttribute (value register : Field) : Operand → Attribute
  | .immediate immediate => value.value immediate.bytes
  | .register place => register.word place.number

/-- The attributes of the operands or of the amount of a transform. -/
def transformAttributes : Transform → List Attribute
  | .boolean mask xor =>
      [operandAttribute .mask .maskRegister mask, operandAttribute .xor .xorRegister xor]
  | .shiftLeft amount => [Field.data.value (Bytes.ofWord (UInt32.ofNat amount))]
  | .shiftRight amount => [Field.data.value (Bytes.ofWord (UInt32.ofNat amount))]

/-- The attributes under which an expression is written. -/
def attributes (expression : Bitwise) : List Attribute :=
  [Field.source.word expression.source.number, Field.destination.word expression.destination.number,
    Field.length.word (UInt32.ofNat expression.length),
    Field.operation.word expression.transform.operation.number] ++
    transformAttributes expression.transform

/-- The message under which an expression is written. -/
def encoding (expression : Bitwise) : Bytes := Attribute.encodeAll expression.attributes

/-- Number of bytes that an operand of `length` bytes takes in a message. -/
def operandSize (length : Nat) : Operand → Nat
  | .immediate _ => 8 + paddedSize length
  | .register _ => 8

/-- Number of bytes in the message of an expression. -/
def encodedSize (expression : Bitwise) : Nat :=
  match expression.transform with
  | .boolean mask xor =>
      32 + operandSize expression.length mask + operandSize expression.length xor
  | .shiftLeft _ => 44
  | .shiftRight _ => 44

/-- An operand takes the bytes of its value with two headers, or those of a register number. -/
theorem length_encode_operandAttribute {length : Nat} (value register : Field) (operand : Operand)
    (sameSize : ∀ immediate ∈ operand.immediate?, immediate.size = length) :
    (operandAttribute value register operand).encode.length = operandSize length operand := by
  cases operand with
  | immediate immediate =>
      rw [operandAttribute, Field.length_encode_value, Immediate.length_bytes,
        sameSize immediate rfl, operandSize]
  | register place => exact Field.length_encode_word register place.number

theorem length_encode_amount (amount : Nat) :
    (Field.data.value (Bytes.ofWord (UInt32.ofNat amount))).encode.length = 12 := by
  rw [Field.length_encode_value, Bytes.length_ofWord]
  rfl

theorem length_encoding {layout : Layout} {expression : Bitwise}
    (placed : expression.WellPlaced layout) :
    expression.encoding.length = expression.encodedSize := by
  rcases expression with ⟨source, destination, length, transform⟩
  have sameSize := placed.immediates
  simp only [encoding, attributes, Attribute.encodeAll_append, Attribute.encodeAll_cons,
    Attribute.encodeAll_nil, List.length_append, Field.length_encode_word, List.length_nil,
    encodedSize]
  cases transform with
  | boolean mask xor =>
      have maskSize := length_encode_operandAttribute .mask .maskRegister mask
        (fun immediate isImmediate => sameSize immediate
          (Transform.mem_immediates_iff.mpr ⟨mask, by simp [Transform.operands], isImmediate⟩))
      have xorSize := length_encode_operandAttribute .xor .xorRegister xor
        (fun immediate isImmediate => sameSize immediate
          (Transform.mem_immediates_iff.mpr ⟨xor, by simp [Transform.operands], isImmediate⟩))
      simp only [transformAttributes, Attribute.encodeAll_cons, Attribute.encodeAll_nil,
        List.length_append, List.length_nil, maskSize, xorSize]
      omega
  | shiftLeft amount =>
      simp only [transformAttributes, Attribute.encodeAll_cons, Attribute.encodeAll_nil,
        List.length_append, length_encode_amount, List.length_nil]
  | shiftRight amount =>
      simp only [transformAttributes, Attribute.encodeAll_cons, Attribute.encodeAll_nil,
        List.length_append, length_encode_amount, List.length_nil]

/-- The largest messages are those of a boolean transform with two values of 255 bytes. -/
theorem encodedSize_le {layout : Layout} {expression : Bitwise}
    (placed : expression.WellPlaced layout) : expression.encodedSize ≤ 560 := by
  have operandSize_le (operand : Operand) : operandSize expression.length operand ≤ 264 := by
    have length_le := placed.length_le
    cases operand with
    | immediate value =>
        simp only [operandSize, paddedSize]
        omega
    | register place => simp [operandSize]
  simp only [encodedSize]
  cases expression.transform with
  | boolean mask xor =>
      have mask_le := operandSize_le mask
      have xor_le := operandSize_le xor
      dsimp only
      omega
  | shiftLeft amount => simp
  | shiftRight amount => simp

theorem length_encoding_le {layout : Layout} {expression : Bitwise}
    (placed : expression.WellPlaced layout) : expression.encoding.length ≤ 560 := by
  rw [length_encoding placed]
  exact encodedSize_le placed

theorem emits_putWord (field : Field) (number : UInt32) :
    Write.Emits (Write.putWord field.type number) (field.word number).encode :=
  Write.emits_put (by rw [Bytes.length_ofWord]; decide)

theorem emits_putOperand (value register : Field) (operand : Operand) :
    Write.Emits (putOperand operand value register)
      (operandAttribute value register operand).encode := by
  cases operand with
  | immediate immediate =>
      apply Immediate.emits_putBytes
      rw [Immediate.length_bytes]
      exact immediate.size_le
  | register place => exact emits_putWord register place.number

theorem emits_putAmount (amount : Nat) :
    Write.Emits ((Immediate.ofWord (UInt32.ofNat amount)).put Field.data.type)
      (Field.data.value (Bytes.ofWord (UInt32.ofNat amount))).encode := by
  rw [Immediate.put, Immediate.bytes_of_ofBytes? (Immediate.ofBytes?_ofWord _)]
  apply Immediate.emits_putBytes
  rw [Bytes.length_ofWord]
  decide

theorem emits_putTransform (transform : Transform) :
    Write.Emits (putTransform transform) (Attribute.encodeAll (transformAttributes transform)) := by
  cases transform with
  | boolean mask xor =>
      simp only [transformAttributes, Attribute.encodeAll_cons, Attribute.encodeAll_nil,
        List.append_nil]
      exact Write.emits_bind (emits_putOperand .mask .maskRegister mask)
        (emits_putOperand .xor .xorRegister xor)
  | shiftLeft amount =>
      simp only [transformAttributes, Attribute.encodeAll_cons, Attribute.encodeAll_nil,
        List.append_nil]
      exact emits_putAmount amount
  | shiftRight amount =>
      simp only [transformAttributes, Attribute.encodeAll_cons, Attribute.encodeAll_nil,
        List.append_nil]
      exact emits_putAmount amount

/-- An expression is written as its encoding. -/
theorem emits_put (expression : Bitwise) : Write.Emits expression.put expression.encoding := by
  simp only [encoding, attributes, Attribute.encodeAll_append, Attribute.encodeAll_cons,
    Attribute.encodeAll_nil, List.append_nil, List.append_assoc]
  apply Write.emits_bind (emits_putWord _ _)
  apply Write.emits_bind (emits_putWord _ _)
  apply Write.emits_bind (emits_putWord _ _)
  apply Write.emits_bind (emits_putWord _ _)
  exact emits_putTransform _

/-- With enough room, dumping an expression adds its encoding to what has been written. -/
theorem dump_eq_ok (expression : Bitwise) {writer : Writer} (sound : writer.Sound)
    (room : writer.bytes.length + expression.encoding.length ≤ writer.limit) :
    expression.dump.run writer = .ok () (writer.append expression.encoding) := by
  have written := (emits_put expression).succeeds writer sound room
  simp only [dump, EStateM.adaptExcept, EStateM.run, written]

theorem dump_blank (expression : Bitwise) {limit : Nat}
    (room : expression.encoding.length ≤ limit) :
    expression.dump.run (Writer.blank limit) = .ok () ⟨expression.encoding, limit⟩ := by
  apply dump_eq_ok expression (Writer.sound_blank limit)
  simpa [Writer.blank] using room

end Bitwise

end PacketExpr
